import SerialIpmi.Replies
import SerialIpmi.Basic.Stream

/-! Where responses go in Basic mode. A response repeats the command of its request,
but its addresses are the defaults of the message container and one LUN fills both
LUN fields, so it reaches the requester only if the request looked the same. -/
namespace SerialIpmi

open Decoding BitField

/-- The frame `r` goes back to where the request frame `m` came from. -/
def Routed (m r : List UInt8) : Prop :=
  r[0]? = m[3]? ∧ r[3]? = m[0]? ∧
    r[1]?.map (fun b => b &&& 0x03) = m[4]?.map (fun b => b &&& 0x03) ∧
    r[4]?.map (fun b => b &&& 0x03) = m[1]?.map (fun b => b &&& 0x03)

instance (m r : List UInt8) : Decidable (Routed m r) := by
  unfold Routed
  infer_instance

/-- The request has the default addresses, and the same LUN on both sides. -/
def DefaultAddressed (m : List UInt8) : Prop :=
  m[0]? = some 0x20 ∧ m[3]? = some 0x81 ∧
    m[1]?.map (fun b => b &&& 0x03) = m[4]?.map (fun b => b &&& 0x03)

/-- A local response belongs to the message that came in last before it. -/
def localStep : Core (Option Message) Action (Message × Message)
  | _, .incoming msg => (some msg, [])
  | current, .respond resp => (current, current.toList.map fun msg => (msg, resp))
  | current, _ => (current, [])

def localAnswers (trace : List Action) : List (Message × Message) :=
  (run localStep none trace).2

def Responds (trace : List Action) (msg resp : Message) : Prop :=
  (msg, resp) ∈ localAnswers trace ∨
    ∃ serial, (serial, msg) ∈ requests trace ∧ (serial, resp) ∈ answers trace

theorem mem_requests {trace : List Action} {serial : Nat} {msg : Message}
    (h : (serial, msg) ∈ requests trace) : msg ∈ trace.filterMap Action.dispatched := by
  have hrun : ∀ (trace : List Action) (current : Option Message),
      (serial, msg) ∈ (run requestStep current trace).2 →
        current = some msg ∨ msg ∈ trace.filterMap Action.dispatched := by
    intro trace
    induction trace with
    | nil => simp
    | cons action trace ih =>
      intro current hmem
      rw [run_cons, List.mem_append] at hmem
      cases action with
      | incoming msg' =>
        rcases ih (some msg') (by simpa [requestStep] using hmem) with heq | htrace
        · rw [Option.some.inj heq]
          exact Or.inr List.mem_cons_self
        · exact Or.inr (List.mem_cons_of_mem _ htrace)
      | called other =>
        rcases hmem with hcall | hrest
        · have hboth : current = some msg ∧ other = serial := by simpa [requestStep] using hcall
          exact Or.inl hboth.1
        · exact ih current hrest
      | _ => exact ih current (by simpa [requestStep] using hmem)
  exact (hrun trace none h).resolve_left (by simp)

theorem localAnswers_flatMap (t : Table) (msgs : List Message) :
    localAnswers (msgs.flatMap (Daemon.dispatchActions t)) =
      msgs.filterMap fun msg => (responseOf t msg).map fun resp => (msg, resp) := by
  have hrun : ∀ current, (run localStep current (msgs.flatMap (Daemon.dispatchActions t))).2 =
      msgs.filterMap fun msg => (responseOf t msg).map fun resp => (msg, resp) := by
    induction msgs with
    | nil => exact fun _ => rfl
    | cons msg msgs ih =>
      intro current
      rw [List.flatMap_cons, run_append, ih, List.filterMap_cons, responseOf]
      cases hexecute : t.executeCommand ⟨msg.netFn, msg.cmd⟩ msg.data with
      | none => simp [Daemon.dispatchActions, hexecute, run_cons, localStep]
      | some respData => simp [Daemon.dispatchActions, hexecute, run_cons, localStep]
  exact hrun none

namespace Daemon

variable {mode : ProtocolMode} {d₀ d : Daemon} {seen : List UInt8}

theorem Settled.localAnswers (h : Settled mode d₀ seen d) :
    localAnswers d.trace = (streamMessages mode seen).filterMap fun msg =>
      (responseOf d₀.table msg).map fun resp => (msg, resp) := by
  have hignored : ∀ (current : Option Message) action, Action.isDispatch action = false →
      localStep current action = (current, []) := by
    intro current action haction
    cases action <;> first | rfl | cases haction
  rw [← localAnswers_flatMap, ← h.trace, SerialIpmi.localAnswers, SerialIpmi.localAnswers,
    run_filter hignored]

theorem Correlated.handle (hd : Correlated d) (h : Settled mode d₀ seen d) (env : Env)
    (event : Event) : Correlated (Daemon.handle env event d).state := by
  have hinput : ∀ (d : Daemon) parser rxBuffer, Sends d [] (d.withInput parser rxBuffer) :=
    fun _ _ _ => ⟨rfl, rfl, rfl, [], (List.append_nil _).symm, rfl, rfl, fun _ => rfl⟩
  cases event with
  | reply serial reply => exact (hd.deliver env serial reply).1
  | busError => exact hd
  | byte ch =>
    have hstate : (Daemon.handle env (.byte ch) d).state = (processByte env ch d).state := rfl
    rw [hstate]
    rcases h.processByte_cases env ch with
      ⟨parser, -, -, hbyte⟩ | ⟨parser, payload, -, -, -, -, hbyte⟩
    · rw [hbyte]
      exact hd.of_sends (hinput d parser [])
    · have hincoming := (hd.of_sends (hinput d parser [ch])).perform env
        (.incoming (parsePayload mode payload))
      rw [hbyte]
      have hperform : Daemon.perform env (.incoming (parsePayload mode payload))
          (d.withInput parser [ch]) =
            processIncoming env (parsePayload mode payload) (d.withInput parser [ch]) := rfl
      rw [hperform] at hincoming
      cases hresult : processIncoming env (parsePayload mode payload) (d.withInput parser [ch]) with
      | ok d' =>
        rw [hresult] at hincoming
        exact hincoming.of_sends (hinput d' _ _)
      | thrown e d' =>
        rw [hresult] at hincoming
        exact hincoming

theorem Correlated.run (hd : Correlated d) (h : Settled mode d₀ seen d) (env : Env)
    (events : List Event) : Correlated (Outcome.eachCaught (Daemon.handle env) events d) := by
  apply h.run_induction (P := fun _ d => Correlated d) hd
  intro seen d event hsettled hcorrelated
  exact hcorrelated.handle hsettled env event

theorem Correlated.request_unique (h : Correlated d) {serial : Nat} {msg msg' : Message}
    (hmsg : (serial, msg) ∈ requests d.trace) (hmsg' : (serial, msg') ∈ requests d.trace) :
    msg = msg' := by
  have hposition : ∀ msg, (serial, msg) ∈ requests d.trace →
      (requests d.trace)[serial]? = some (serial, msg) := by
    intro msg hmem
    obtain ⟨i, hi⟩ := List.mem_iff_getElem?.mp hmem
    have hserial := congrArg (fun serials => serials[i]?) h.serials
    simp only [List.getElem?_map, hi, Option.map_some] at hserial
    obtain ⟨_, hrange⟩ := List.getElem?_eq_some_iff.mp hserial.symm
    rw [List.getElem_range] at hrange
    rwa [hrange] at hi
  have heq := (hposition msg hmsg).symm.trans (hposition msg' hmsg')
  exact (Prod.mk.inj (Option.some.inj heq)).2

theorem routed_responsePayload {payload : List UInt8} (hlength : 7 ≤ payload.length)
    {resp : Message} (hrqSA : resp.rqSA = 0x81) (hrsSA : resp.rsSA = 0x20)
    (hlun : resp.lun = (parsePayload .basic payload).lun) :
    Routed payload (responsePayload resp) ↔ DefaultAddressed payload := by
  have hmod : ∀ b : UInt8, (b &&& 0x03) % (4 : UInt8) = b &&& 0x03 := by decide +kernel
  obtain ⟨a, b, c, d, e, f, g, rest, rfl⟩ := Basic.exists_of_seven_le hlength
  have hb : resp.lun = b &&& 0x03 := by
    rw [hlun, parsePayload, parseBasicPayload, if_neg (Nat.not_lt.mpr hlength)]
    rfl
  obtain ⟨csum1, csum2, hpayload⟩ := responsePayload_eq resp
  rw [hpayload, Routed, DefaultAddressed, hrqSA, hrsSA]
  simp only [List.getElem?_cons_zero, List.getElem?_cons_succ, Option.map_some, low_pack, hb, hmod,
    Option.some.injEq, and_true]
  constructor
  · rintro ⟨hrequester, hresponder, hlun⟩
    exact ⟨hresponder.symm, hrequester.symm, hlun⟩
  · rintro ⟨hresponder, hrequester, hlun⟩
    exact ⟨hrequester.symm, hresponder.symm, hlun⟩

/-- In every run in Basic mode, a response goes back to the requester exactly when the
request frame is default-addressed, whichever path answers it. -/
theorem routed_iff (env : Env) (channel : Option Channel) (channelName : String)
    (events : List Event)
    (hecho : ∀ serial netFn lun cmd cc data msg,
      (serial, Reply.response netFn lun cmd cc data) ∈
        arrivals (Outcome.eachCaught (Daemon.handle env) events
          (start .basic channel channelName (some {}))).trace →
      (serial, msg) ∈ requests (Outcome.eachCaught (Daemon.handle env) events
        (start .basic channel channelName (some {}))).trace → lun = msg.lun)
    (msg resp : Message)
    (hresp : Responds (Outcome.eachCaught (Daemon.handle env) events
      (start .basic channel channelName (some {}))).trace msg resp) :
    Routed msg.rawFrame (responsePayload resp) ↔ DefaultAddressed msg.rawFrame := by
  have hstart := settled_start .basic channel channelName (some {})
  have hsettled := hstart.run env events
  have hcorrelated := (correlated_start .basic channel channelName).run hstart env events
  set d := Outcome.eachCaught (Daemon.handle env) events (start .basic channel channelName (some {}))
  have hplain : resp.rqSA = 0x81 ∧ resp.rsSA = 0x20 ∧ resp.lun = msg.lun ∧
      msg ∈ d.trace.filterMap Action.dispatched := by
    rcases hresp with hlocal | ⟨serial, hrequest, hanswer⟩
    · rw [hsettled.localAnswers] at hlocal
      obtain ⟨msg', hmsg', hresponse⟩ := List.mem_filterMap.mp hlocal
      obtain ⟨resp', hresp', hpair⟩ := Option.map_eq_some_iff.mp hresponse
      obtain ⟨rfl, rfl⟩ := Prod.mk.inj hpair
      obtain ⟨respData, -, rfl⟩ := Option.map_eq_some_iff.mp hresp'
      exact ⟨rfl, rfl, rfl, by rw [hsettled.dispatched]; exact hmsg'⟩
    · obtain ⟨msg', reply, sent, hmsg', hreply, howed, hsent⟩ := hcorrelated.answers _ hanswer
      obtain rfl := hcorrelated.request_unique hrequest hmsg'
      have hdispatched := mem_requests hrequest
      rcases howed.mem hsent with hexpected | hexception
      · cases reply with
        | methodError =>
          obtain rfl := Option.some.inj hexpected
          exact ⟨rfl, rfl, rfl, hdispatched⟩
        | unreadable => cases hexpected
        | response netFn lun cmd cc data =>
          have hlun := hecho serial netFn lun cmd cc data msg hreply hrequest
          obtain rfl := Option.some.inj hexpected
          exact ⟨rfl, rfl, hlun, hdispatched⟩
      · dsimp only at hexception
        rw [hexception]
        exact ⟨rfl, rfl, rfl, hdispatched⟩
  obtain ⟨hrqSA, hrsSA, hlun, hdispatched⟩ := hplain
  rw [hsettled.dispatched] at hdispatched
  obtain ⟨payload, hpayload, rfl⟩ := List.mem_map.mp hdispatched
  obtain ⟨frame, -, hkeep⟩ := List.mem_filterMap.mp hpayload
  rw [parsePayload_rawFrame]
  exact routed_responsePayload (Basic.keep_length hkeep) hrqSA hrsSA hlun

theorem routed_device_id :
    let request : List UInt8 := [0x20, 0x18, 0xC8, 0x81, 0x04, 0x01, 0x7A]
    Routed request (responsePayload { netFn := 0x07, seqNum := 0x01, cmd := 0x01 }) ↔
      DefaultAddressed request := by
  let events : List Event := [0xA0, 0x20, 0x18, 0xC8, 0x81, 0x04, 0x01, 0x7A, 0xA5].map .byte ++
    [.reply 0 (.response 0x07 0x00 0x01 0x00 [])]
  let d := Outcome.eachCaught (Daemon.handle .reliable) events
    (start .basic (some ⟨"/dev/ttyAMA1", 3⟩) "serial0" (some {}))
  have harrivals : arrivals d.trace = [(0, .response 0x07 0x00 0x01 0x00 [])] := by decide +kernel
  have hrequests : requests d.trace =
      [(0, parsePayload .basic [0x20, 0x18, 0xC8, 0x81, 0x04, 0x01, 0x7A])] := by decide +kernel
  have hanswers : answers d.trace = [(0, { netFn := 0x07, seqNum := 0x01, cmd := 0x01 })] := by
    decide +kernel
  refine routed_iff .reliable (some ⟨"/dev/ttyAMA1", 3⟩) "serial0" events ?_
    (parsePayload .basic [0x20, 0x18, 0xC8, 0x81, 0x04, 0x01, 0x7A]) _
    (Or.inr ⟨0, hrequests ▸ List.mem_singleton_self _, hanswers ▸ List.mem_singleton_self _⟩)
  intro serial netFn lun cmd cc data msg hreply hrequest
  obtain ⟨-, hresponse⟩ := Prod.mk.inj (List.mem_singleton.mp (harrivals ▸ hreply))
  obtain ⟨-, rfl⟩ := Prod.mk.inj (List.mem_singleton.mp (hrequests ▸ hrequest))
  rw [(Reply.response.inj hresponse).2.1]
  rfl

/-- A request from address 0x82 is answered to address 0x81. -/
theorem response_misrouted :
    let request : List UInt8 := [0x20, 0x18, 0xC8, 0x82, 0x04, 0x3B, 0x3F]
    let resp : Message := { netFn := 0x07, seqNum := 0x01, cmd := 0x3B, data := [0x04] }
    let d := Outcome.eachCaught (Daemon.handle .reliable)
      ([0xA0, 0x20, 0x18, 0xC8, 0x82, 0x04, 0x3B, 0x3F, 0xA5].map .byte)
      (start .basic (some ⟨"/dev/ttyAMA1", 3⟩) "serial0" (some {}))
    Responds d.trace (parsePayload .basic request) resp ∧ ¬ Routed request (responsePayload resp) :=
  ⟨Or.inl (by decide +kernel), by decide +kernel⟩

end Daemon

end SerialIpmi
