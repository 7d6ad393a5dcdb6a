import SerialIpmi.Line
import SerialIpmi.Uart

/-! The program from its command line to its exit code: the options, the channel, the event loop
and what an exception makes of a run. -/
namespace SerialIpmi

open Decoding

/-- What `getopt_long` returns, with the argument of the option. -/
inductive Opt where
  | device (optarg : String)
  | baud (optarg : String)
  | mode (optarg : String)
  | channel (optarg : String)
  | verbose
  | debugFrames
  | sessionTimeout (optarg : String)
  | maxRetries (optarg : String)
  | help
  | unknown

def isSpace (c : Char) : Bool :=
  c.toNat = 32 ∨ (9 ≤ c.toNat ∧ c.toNat ≤ 13)

def takeSign : List Char → Bool × List Char
  | c :: rest => if c.toNat = 45 then (true, rest) else if c.toNat = 43 then (false, rest)
      else (false, c :: rest)
  | [] => (false, [])

/-- `std::stoi`: `none` where it throws. What follows the digits is not looked at. -/
def stoi (str : String) : Option Int :=
  let (negative, chars) := takeSign (str.toList.dropWhile isSpace)
  let digits := chars.takeWhile Char.isDigit
  if digits = [] then none
  else
    let magnitude : Nat := digits.foldl (fun n c => 10 * n + (c.toNat - 48)) 0
    let value : Int := if negative then -magnitude else magnitude
    if -2147483648 ≤ value ∧ value ≤ 2147483647 then some value else none

structure Config where
  device : String
  baud : Int := 115200
  mode : String := "terminal"
  channel : String := "serial0"
  verbose : Bool := false
  debugFrames : Bool := false
  sessionTimeout : Int := 60
  maxRetries : Int := 3
  deriving DecidableEq, Repr

inductive ExitCode where
  | success
  | failure
  deriving DecidableEq, Repr

def Opt.apply (config : Config) : Opt → Except ExitCode Config
  | .device optarg => .ok { config with device := optarg }
  | .baud optarg =>
      match stoi optarg with
      | some value => .ok { config with baud := value }
      | none => .error .failure
  | .mode optarg => .ok { config with mode := optarg }
  | .channel optarg => .ok { config with channel := optarg }
  | .verbose => .ok { config with verbose := true }
  | .debugFrames => .ok { config with debugFrames := true }
  | .sessionTimeout optarg =>
      match stoi optarg with
      | some value => .ok { config with sessionTimeout := value }
      | none => .error .failure
  | .maxRetries optarg =>
      match stoi optarg with
      | some value => .ok { config with maxRetries := value }
      | none => .error .failure
  | .help => .error .success
  | .unknown => .error .failure

def parseOptions : List Opt → Config → Except ExitCode Config
  | [], config => .ok config
  | opt :: opts, config =>
      match opt.apply config with
      | .ok config => parseOptions opts config
      | .error code => .error code

/-- Everything outside the program: the calls of the constructor, the writes and the calls on the
bus, and whether the system bus can be reached. -/
structure World where
  os : Os
  env : Env
  systemBus : Bool

/-- How the program ends: its exit code, the system calls of the channel's constructor, and the
event loop if it was started. -/
structure Ending where
  code : ExitCode
  log : List SysCall := []
  loop : Option EventLoop := none

def Config.protocolMode (config : Config) : ProtocolMode :=
  if config.mode = "basic" then .basic else .terminal

/-- The `try` block of `main`; `polls` is what the loop finds until a signal stops it. -/
def serve (world : World) (config : Config) (polls : List Poll) : Ending :=
  if world.systemBus then
    match Channel.construct world.os config.device (UInt32.ofInt config.baud) [] with
    | (.error _, log) => { code := .failure, log }
    | (.ok uartChan, log) =>
        let daemon := Daemon.start config.protocolMode (some uartChan) config.channel (some {})
        match EventLoop.startEventLoop world.env polls { daemon } with
        | .ok loop => { code := .success, log, loop := some loop }
        | .thrown _ loop => { code := .failure, log, loop := some loop }
  else { code := .failure }

/-- `serialDevice` is the device of the build configuration. -/
def main (serialDevice : String) (world : World) (opts : List Opt) (polls : List Poll) : Ending :=
  match parseOptions opts { device := serialDevice } with
  | .error code => { code }
  | .ok config => serve world config polls

def Opt.stops : Opt → Option ExitCode
  | .baud optarg | .sessionTimeout optarg | .maxRetries optarg =>
      if (stoi optarg).isSome then none else some .failure
  | .help => some .success
  | .unknown => some .failure
  | .device _ | .mode _ | .channel _ | .verbose | .debugFrames => none

def lastOf {α : Type} (value : Opt → Option α) (opts : List Opt) (initial : α) : α :=
  (opts.filterMap value).getLast?.getD initial

def Config.updated (config : Config) (opts : List Opt) : Config where
  device := lastOf (fun opt => match opt with | .device optarg => some optarg | _ => none) opts
    config.device
  baud := lastOf (fun opt => match opt with | .baud optarg => stoi optarg | _ => none) opts
    config.baud
  mode := lastOf (fun opt => match opt with | .mode optarg => some optarg | _ => none) opts
    config.mode
  channel := lastOf (fun opt => match opt with | .channel optarg => some optarg | _ => none) opts
    config.channel
  verbose := lastOf (fun opt => match opt with | .verbose => some true | _ => none) opts
    config.verbose
  debugFrames := lastOf (fun opt => match opt with | .debugFrames => some true | _ => none) opts
    config.debugFrames
  sessionTimeout := lastOf
    (fun opt => match opt with | .sessionTimeout optarg => stoi optarg | _ => none) opts
    config.sessionTimeout
  maxRetries := lastOf
    (fun opt => match opt with | .maxRetries optarg => stoi optarg | _ => none) opts
    config.maxRetries

theorem lastOf_nil {α : Type} (value : Opt → Option α) (initial : α) :
    lastOf value [] initial = initial := rfl

theorem lastOf_cons {α : Type} (value : Opt → Option α) (opt : Opt) (opts : List Opt)
    (initial : α) : lastOf value (opt :: opts) initial =
      lastOf value opts ((value opt).getD initial) := by
  unfold lastOf
  cases h : value opt with
  | none => rw [List.filterMap_cons_none h]; rfl
  | some a => rw [List.filterMap_cons_some h, List.getLast?_cons]; rfl

theorem apply_eq (config : Config) (opt : Opt) :
    opt.apply config = match opt.stops with
      | some code => .error code
      | none => .ok (config.updated [opt]) := by
  cases opt with
  | device optarg => rfl
  | mode optarg => rfl
  | channel optarg => rfl
  | verbose => rfl
  | debugFrames => rfl
  | help => rfl
  | unknown => rfl
  | baud optarg =>
    unfold Opt.apply Opt.stops Config.updated
    cases h : stoi optarg <;> simp [lastOf, h]
  | sessionTimeout optarg =>
    unfold Opt.apply Opt.stops Config.updated
    cases h : stoi optarg <;> simp [lastOf, h]
  | maxRetries optarg =>
    unfold Opt.apply Opt.stops Config.updated
    cases h : stoi optarg <;> simp [lastOf, h]

theorem updated_cons (config : Config) (opt : Opt) (opts : List Opt) :
    config.updated (opt :: opts) = (config.updated [opt]).updated opts := by
  simp only [Config.updated, lastOf_cons, lastOf_nil]

/-- The first option that ends the program decides its exit code; without one, every variable has
the last value it was given. -/
theorem parseOptions_eq (opts : List Opt) (config : Config) :
    parseOptions opts config = match opts.findSome? Opt.stops with
      | some code => .error code
      | none => .ok (config.updated opts) := by
  induction opts generalizing config with
  | nil => rfl
  | cons opt opts ih =>
    rw [parseOptions, apply_eq]
    cases hstops : opt.stops with
    | some code => rw [List.findSome?_cons_of_isSome (by rw [hstops]; rfl), hstops]
    | none =>
      rw [List.findSome?_cons_of_isNone (by rw [hstops]; rfl), updated_cons config opt opts]
      exact ih _

namespace EventLoop

theorem startEventLoop_prefix (env : Env) (polls : List Poll) (daemon : Daemon) :
    ∃ done, done <+: polls.flatMap Poll.events ∧
      (startEventLoop env polls { daemon }).state =
        { daemon := Outcome.eachCaught (Daemon.handle env) done daemon } ∧
      ((startEventLoop env polls { daemon }).isOk = true → done = polls.flatMap Poll.events) := by
  obtain ⟨done, hprefix, hstate, hall⟩ :=
    Outcome.each_state (Daemon.handle env) (polls.flatMap Poll.events) daemon
  refine ⟨done, hprefix, ?_⟩
  rw [startEventLoop_eq]
  cases hrun : Outcome.each (Daemon.handle env) (polls.flatMap Poll.events) daemon with
  | ok daemon' =>
    rw [hrun] at hstate hall
    exact ⟨by rw [← hstate]; rfl, hall⟩
  | thrown e daemon' =>
    rw [hrun] at hstate hall
    exact ⟨by rw [← hstate]; rfl, hall⟩

/-- An exception ends the loop: the bytes that were read together with the one whose dispatch
throws, but come after it, are never processed, nor is a reply that was ready in that round. -/
theorem exception_ends_loop (env : Env) (mode : ProtocolMode) (channel : Option Channel)
    (channelName : String) (bus : Option Bus) (polls : List Poll) (e : Failure) (loop : EventLoop)
    (h : startEventLoop env polls { daemon := .start mode channel channelName bus } =
      .thrown e loop) :
    ∃ done event rest, polls.flatMap Poll.events = done ++ event :: rest ∧
      loop.readAccumulator = [] ∧
      Daemon.handle env event (Outcome.eachCaught (Daemon.handle env) done
        (.start mode channel channelName bus)) = .thrown e loop.daemon ∧
      loop.daemon.trace.filterMap Action.dispatched =
        streamMessages mode ((done ++ [event]).flatMap Event.input) := by
  rw [startEventLoop_eq] at h
  cases hrun : Outcome.each (Daemon.handle env) (polls.flatMap Poll.events)
      (Daemon.start mode channel channelName bus) with
  | ok daemon =>
    rw [hrun] at h
    cases h
  | thrown e' daemon =>
    rw [hrun] at h
    obtain ⟨rfl, rfl⟩ := Outcome.thrown.inj h
    obtain ⟨done, event, rest, middle, hevents, hdone, hcall⟩ := Outcome.each_thrown hrun
    have hmiddle := Outcome.eachCaught_of_ok hdone
    refine ⟨done, event, rest, hevents, rfl, by rw [hmiddle]; exact hcall, ?_⟩
    have hsettled := ((Daemon.settled_start mode channel channelName bus).run env done).handle env
      event
    rw [hmiddle, hcall, List.nil_append, ← List.flatMap_singleton Event.input event,
      ← List.flatMap_append] at hsettled
    exact hsettled.dispatched

theorem exception_ends_loop_early :
    let env : Env := { write := fun _ _ => none, callAsync := fun _ => true }
    let request : List UInt8 := [0xA0, 0x20, 0x18, 0xC8, 0x81, 0x04, 0x3B, 0x40, 0xA5]
    let polls : List Poll := [.ready (some (.bytes (request ++ request) (by decide))) none]
    let daemon := Daemon.start .basic (some ⟨"/dev/ttyS0", 3⟩) "serial0" none
    ∃ e loop, startEventLoop env polls { daemon } = .thrown e loop ∧ loop.readAccumulator = [] ∧
      ∃ done event rest, polls.flatMap Poll.events = done ++ event :: rest ∧
        loop.daemon.trace.filterMap Action.dispatched =
          streamMessages .basic ((done ++ [event]).flatMap Event.input) := by
  intro env request polls daemon
  cases hloop : startEventLoop env polls { daemon } with
  | ok loop =>
    have hthrows : (startEventLoop env polls { daemon }).isOk = false := by decide +kernel
    rw [hloop] at hthrows
    cases hthrows
  | thrown e loop =>
    obtain ⟨done, event, rest, hevents, hempty, -, hdispatched⟩ := exception_ends_loop env .basic
      (some ⟨"/dev/ttyS0", 3⟩) "serial0" none polls e loop hloop
    exact ⟨e, loop, rfl, hempty, done, event, rest, hevents, hdispatched⟩

end EventLoop

def Config.daemon (config : Config) (fd : Nat) : Daemon :=
  .start config.protocolMode (some ⟨config.device, fd⟩) config.channel (some {})

/-- What is known of an ending of the loop that `config` has set up. -/
structure Served (world : World) (config : Config) (polls : List Poll) (ending : Ending)
    (loop : EventLoop) (fd : Nat) (speed : Speed) (done : List Event) : Prop where
  supported : Channel.baudRateToConstant world.os (UInt32.ofInt config.baud) = some speed
  settings : .tcsetattr fd (.configured speed) ∈ ending.log
  descriptor : OpensOnly fd ending.log
  channel : loop.daemon.handler.channel = some ⟨config.device, fd⟩
  channelName : loop.daemon.handler.channelName = config.channel
  events : done <+: polls.flatMap Poll.events
  code : ending.code = .success → done = polls.flatMap Poll.events
  ended : (ending.code = .success ∧
      EventLoop.startEventLoop world.env polls { daemon := config.daemon fd } = .ok loop) ∨
    (ending.code = .failure ∧ ∃ e,
      EventLoop.startEventLoop world.env polls { daemon := config.daemon fd } = .thrown e loop)
  dispatched : loop.daemon.trace.filterMap Action.dispatched =
    streamMessages config.protocolMode (done.flatMap Event.input)
  line : Daemon.OnLine world.env config.protocolMode loop.daemon.sent loop.daemon

theorem serve_cases (world : World) (config : Config) (polls : List Poll) :
    ((serve world config polls).loop = none ∧ (serve world config polls).code = .failure ∧
      (∀ fd, opens fd (serve world config polls).log = closes fd (serve world config polls).log) ∧
      (world.systemBus = false ∨
        ∃ e, (Channel.construct world.os config.device (UInt32.ofInt config.baud) []).1 = .error e)) ∨
    ∃ loop fd speed done, (serve world config polls).loop = some loop ∧
      Served world config polls (serve world config polls) loop fd speed done := by
  unfold serve
  cases world.systemBus with
  | false => exact Or.inl ⟨rfl, rfl, fun fd => rfl, Or.inl rfl⟩
  | true =>
    obtain ⟨calls, hlog, ⟨e, hresult, hclosed⟩ | ⟨fd, speed, hresult, hspeed, hsettings, honly⟩⟩ :=
      Channel.construct_cases world.os config.device (UInt32.ofInt config.baud) []
    · rw [if_pos rfl, ← Prod.eta (Channel.construct _ _ _ _), hresult, hlog]
      exact Or.inl ⟨rfl, rfl, hclosed, Or.inr ⟨e, rfl⟩⟩
    · right
      rw [if_pos rfl, ← Prod.eta (Channel.construct _ _ _ _), hresult, hlog, List.nil_append]
      set uartChan : Channel := ⟨config.device, fd⟩
      set daemon := Daemon.start config.protocolMode (some uartChan) config.channel (some {})
      have hopen : 0 ≤ uartChan.fd := Int.natCast_nonneg fd
      obtain ⟨done, hprefix, hstate, hall⟩ :=
        EventLoop.startEventLoop_prefix world.env polls daemon
      have hline := Daemon.onLine_run world.env config.protocolMode hopen config.channel (some {})
        sessionTable done
      have hsettled := (Daemon.settled_start config.protocolMode (some uartChan) config.channel
        (some {})).run world.env done
      rw [List.nil_append] at hsettled
      dsimp only
      cases hrun : EventLoop.startEventLoop world.env polls { daemon } with
      | ok loop =>
        rw [hrun] at hstate hall
        obtain rfl : loop = _ := hstate
        exact ⟨_, fd, speed, done, rfl, hspeed, hsettings, honly, hsettled.channel,
          hsettled.channelName, hprefix, fun _ => hall rfl, Or.inl ⟨rfl, hrun⟩,
          hsettled.dispatched, hline⟩
      | thrown e loop =>
        rw [hrun] at hstate
        obtain rfl : loop = _ := hstate
        exact ⟨_, fd, speed, done, rfl, hspeed, hsettings, honly, hsettled.channel,
          hsettled.channelName, hprefix, (fun hcode => nomatch hcode), Or.inr ⟨rfl, e, hrun⟩,
          hsettled.dispatched, hline⟩

/-- How the program ends, from its command line on. The loop is not started where an option stops
the program, with the exit code of that option, or where the system bus or the device cannot be
used; then no descriptor stays open. If it is started, no option was bad; the last `--device`,
`--baud`, `--mode` and `--channel` have decided the device, its line settings, the mode and the
channel name of the handler; the exit code says whether an exception has ended the loop; and the
daemon has dispatched the messages of the bytes handed to it, and has written what it sent, frame by
frame. -/
theorem main_serves (serialDevice : String) (world : World) (opts : List Opt)
    (polls : List Poll) :
    let config := ({ device := serialDevice } : Config).updated opts
    let ending := main serialDevice world opts polls
    (ending.loop = none ∧ (∀ fd, opens fd ending.log = closes fd ending.log) ∧
      (ending.code = .success → opts.findSome? Opt.stops = some .success) ∧
      (opts.findSome? Opt.stops = some ending.code ∨ world.systemBus = false ∨
        ∃ e, (Channel.construct world.os config.device (UInt32.ofInt config.baud) []).1 =
          .error e)) ∨
    (opts.findSome? Opt.stops = none ∧ ∃ loop fd speed done, ending.loop = some loop ∧
      Served world config polls ending loop fd speed done) := by
  intro config ending
  have hmain : ending = match opts.findSome? Opt.stops with
      | some code => { code }
      | none => serve world config polls := by
    change main serialDevice world opts polls = _
    rw [main, parseOptions_eq]
    cases opts.findSome? Opt.stops <;> rfl
  cases hstops : opts.findSome? Opt.stops with
  | some code =>
    rw [hstops] at hmain
    rw [hmain]
    exact Or.inl ⟨rfl, fun fd => rfl, fun hcode => congrArg some hcode, Or.inl rfl⟩
  | none =>
    rw [hstops] at hmain
    rw [hmain]
    rcases serve_cases world config polls with ⟨hnone, hcode, hclosed, hcause⟩ | hserved
    · refine Or.inl ⟨hnone, hclosed, fun hsuccess => ?_, Or.inr hcause⟩
      have hboth := hcode.symm.trans hsuccess
      cases hboth
    · exact Or.inr ⟨rfl, hserved⟩

end SerialIpmi
