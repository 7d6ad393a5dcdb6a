import SerialIpmi.Responses

/-! Requests and responses over a whole Basic-mode stream: what the daemon writes
for the registered commands decodes to their responses, one for each and in order. -/
namespace SerialIpmi

open Decoding Framing

def Env.AcceptsAll (env : Env) : Prop :=
  ∀ count bytes, env.write count bytes = some (Fin.last bytes.length)

/-- The frames that `processIncoming` writes itself: a write right after the choice of
a local response. The state says whether that choice was the last action. -/
def syncStep : Core Bool Action (List UInt8)
  | true, .write bytes => (false, [bytes])
  | _, .respond _ => (true, [])
  | _, _ => (false, [])

namespace Daemon

section

variable {env : Env} {d d' d'' : Daemon}

theorem sendResponse_acceptsAll (henv : env.AcceptsAll) (resp : Message) (d : Daemon) :
    sendResponse env resp d = match d.handler.channel with
      | none => .ok d
      | some channel =>
          if channel.fd < 0 then
            .thrown (.notOpen channel.devicePath) (d.log (.write (d.frame resp)))
          else .ok { d.log (.write (d.frame resp)) with
            device := { writes := d.device.writes + 1
                        accepted := d.device.accepted ++ [d.frame resp] }
            framesSent := d.framesSent + 1 } := by
  have hframe : d.frame resp ≠ [] := d.handler.parser.encodeResponse_ne_nil _
  rw [sendResponse, ← frame, if_pos hframe]
  cases hchannel : d.handler.channel with
  | none => rfl
  | some channel =>
    by_cases hfd : channel.fd < 0
    · simp [Channel.write, log, hfd]
    · simp [Channel.write, log, hfd, henv d.device.writes (d.frame resp)]

def Accounted (d : Daemon) : Prop :=
  d.device.accepted = d.written

theorem Accounted.of_log (h : d.Accounted) (actions : List Action) (hdevice : d'.device = d.device)
    (htrace : d'.trace = d.trace ++ actions) (hnone : actions.filterMap Action.written = []) :
    d'.Accounted := by
  rw [Accounted, written, hdevice, htrace, List.filterMap_append, hnone, List.append_nil]
  exact h

theorem sendResponse_accounted (henv : env.AcceptsAll) {resp : Message} (h : d.Accounted)
    (hok : sendResponse env resp d = .ok d') : d'.Accounted := by
  rw [sendResponse_acceptsAll henv] at hok
  cases hchannel : d.handler.channel with
  | none =>
    rw [hchannel] at hok
    rwa [← Outcome.ok.inj hok]
  | some channel =>
    rw [hchannel] at hok
    dsimp only at hok
    split_ifs at hok with hfd
    rw [← Outcome.ok.inj hok, Accounted, written, log, List.filterMap_append]
    exact congrArg (· ++ [d.frame resp]) h

/-- A closed channel stays closed, so after one failure every write fails. -/
theorem sendResponse_thrown_again (henv : env.AcceptsAll) {resp : Message} {e : Failure}
    (hthrown : sendResponse env resp d = .thrown e d') (resp' : Message) (d'' : Daemon)
    (hchannel : d''.handler.channel = d.handler.channel) (s : Daemon) :
    sendResponse env resp' d'' ≠ .ok s := by
  rw [sendResponse_acceptsAll henv] at hthrown ⊢
  rw [hchannel]
  cases hcases : d.handler.channel with
  | none => simp [hcases] at hthrown
  | some channel =>
    rw [hcases] at hthrown
    dsimp only at hthrown ⊢
    split_ifs at hthrown with hfd
    rw [if_pos hfd]
    simp

theorem forwardToIpmid_accounted {netFn lun cmd : UInt8} {data : List UInt8} {sessionId : UInt32}
    (h : d.Accounted) (hok : forwardToIpmid env netFn lun cmd data sessionId d = .ok d') :
    d'.Accounted := by
  rcases forwardToIpmid_cases env netFn lun cmd data sessionId d with
    ⟨-, hforward⟩ | ⟨bus, -, ⟨-, hforward⟩ | ⟨-, hforward⟩⟩
  · rw [hok] at hforward
    rw [Outcome.ok.inj hforward]
    exact h.of_log [.forward netFn lun cmd data sessionId] rfl rfl rfl
  · rw [hok] at hforward
    cases hforward
  · rw [hok] at hforward
    rw [Outcome.ok.inj hforward]
    exact h.of_log [.forward netFn lun cmd data sessionId, .called bus.calls.length] rfl
      (List.append_assoc ..) rfl

theorem processIncoming_accounted (henv : env.AcceptsAll) {msg : Message} (h : d.Accounted)
    (hok : processIncoming env msg d = .ok d') : d'.Accounted := by
  cases hexecute : d.table.executeCommand ⟨msg.netFn, msg.cmd⟩ msg.data with
  | some respData =>
    rw [processIncoming_local env hexecute] at hok
    have hresponding : (d.responding msg respData).Accounted :=
      h.of_log [.incoming msg, .respond (localResponse msg respData)] rfl rfl rfl
    exact sendResponse_accounted henv hresponding hok
  | none =>
    rw [processIncoming_forward env hexecute] at hok
    have hreceived : (d.received msg).Accounted := h.of_log [.incoming msg] rfl rfl rfl
    exact forwardToIpmid_accounted hreceived hok

theorem sendAnswer_accounted (henv : env.AcceptsAll) {serial : Nat} {resp : Message}
    (h : d.Accounted) (hok : sendAnswer env serial resp d = .ok d') : d'.Accounted := by
  have hanswer : (d.log (.answer serial resp)).Accounted :=
    h.of_log [.answer serial resp] rfl rfl rfl
  exact sendResponse_accounted henv hanswer hok

theorem deliver_accounted (henv : env.AcceptsAll) {serial : Nat} {reply : Reply}
    (h : d.Accounted) (hok : deliver env serial reply d = .ok d') : d'.Accounted := by
  have harrived : ∀ bus, (d.arrived bus serial reply).Accounted := fun bus =>
    h.of_log [.reply serial reply] rfl rfl rfl
  rcases deliver_cases env serial reply d with
    ⟨-, hdeliver⟩ | ⟨bus, -, -, ⟨-, hdeliver⟩ | ⟨call, -, -, hdeliver⟩⟩
  · rw [hok] at hdeliver
    rwa [Outcome.ok.inj hdeliver]
  · rw [hok] at hdeliver
    rw [Outcome.ok.inj hdeliver]
    exact harrived bus
  · rw [hok] at hdeliver
    rcases replyCallback_cases env serial call.callback reply (d.arrived bus serial reply) with
      ⟨resp, middle, -, hsend, hcallback⟩ | ⟨resp, e, middle, -, hsend, hcallback⟩ | ⟨-, hcallback⟩
    · rw [← hdeliver] at hcallback
      rw [Outcome.ok.inj hcallback]
      exact sendAnswer_accounted henv (harrived bus) hsend
    · -- the second attempt would have to write to the channel that has just refused
      have hchannel := sendAnswer_dispatches env serial resp (d.arrived bus serial reply)
      rw [hsend] at hchannel
      rw [← hdeliver, sendAnswer] at hcallback
      exact absurd hcallback.symm (sendResponse_thrown_again henv hsend _
        (middle.log (.answer serial call.callback.exceptionResponse)) hchannel.channel d')
    · rw [← hdeliver] at hcallback
      exact sendAnswer_accounted henv (harrived bus) hcallback.symm

def Silent (d d' : Daemon) : Prop :=
  ∃ actions, d'.trace = d.trace ++ actions ∧ ∀ sync, (run syncStep sync actions).2 = []

theorem Silent.refl (d : Daemon) : Silent d d := ⟨[], by simp, fun _ => rfl⟩

theorem Silent.trans (h : Silent d d') (h' : Silent d' d'') : Silent d d'' := by
  obtain ⟨left, hleft, hsilent⟩ := h
  obtain ⟨right, hright, hsilent'⟩ := h'
  refine ⟨left ++ right, by rw [hright, hleft, List.append_assoc], fun sync => ?_⟩
  rw [run_append, hsilent, hsilent', List.append_nil]

end

section

variable {mode : ProtocolMode} {d₀ d : Daemon} {seen : List UInt8}

theorem frame_eq (hmode : d.handler.parser.mode = mode) (resp : Message) :
    d.frame resp = (createParser mode).encodeResponse (responsePayload resp) :=
  IParser.encodeResponse_mode (by rw [hmode]; cases mode <;> rfl) _

theorem Settled.accounted_handle (h : Settled mode d₀ seen d) {env : Env} (henv : env.AcceptsAll)
    {event : Event} {d' : Daemon} (haccounted : d.Accounted)
    (hok : Daemon.handle env event d = .ok d') : d'.Accounted := by
  cases event with
  | reply serial reply => exact deliver_accounted henv haccounted hok
  | busError => cases hok
  | byte ch =>
    have hbyte : Daemon.processByte env ch d = .ok d' := hok
    have hwithInput : ∀ {d : Daemon} parser rxBuffer, d.Accounted →
        (d.withInput parser rxBuffer).Accounted := fun _ _ h =>
      h.of_log [] rfl (List.append_nil _).symm rfl
    rcases h.processByte_cases env ch with
      ⟨parser, -, -, hcase⟩ | ⟨parser, payload, -, -, -, -, hcase⟩
    · rw [hbyte] at hcase
      rw [Outcome.ok.inj hcase]
      exact hwithInput parser [] haccounted
    · rw [hbyte] at hcase
      obtain ⟨middle, hincoming, hmiddle⟩ := Outcome.andThen_eq_ok hcase.symm
      rw [← Outcome.ok.inj hmiddle]
      exact hwithInput _ _
        (processIncoming_accounted henv (hwithInput parser [ch] haccounted) hincoming)

theorem Settled.accounted_run (h : Settled mode d₀ seen d) {env : Env} (henv : env.AcceptsAll)
    {events : List Event} {d' : Daemon} (haccounted : d.Accounted)
    (hok : Outcome.each (Daemon.handle env) events d = .ok d') : d'.Accounted := by
  apply h.ok_induction haccounted ?_ hok
  intro seen d event d' hsettled haccounted hstep
  exact hsettled.accounted_handle henv haccounted hstep

end

end Daemon

end SerialIpmi
