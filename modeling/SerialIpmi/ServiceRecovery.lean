import SerialIpmi.Forwarding
import SerialIpmi.Lockstep
import SerialIpmi.ShortWrites

/-! What the daemon can be after any past of its line, its port and its bus, as long as no exception
has ended the event loop: it serves the next client like a fresh one. -/
namespace SerialIpmi

open Decoding

namespace Daemon

variable {env : Env} {d d' : Daemon}

def Connected (d : Daemon) : Prop :=
  ∃ bus, d.bus = some bus ∧ ∀ serial ∈ bus.replied, serial < bus.calls.length

theorem Connected.of_bus (h : Connected d) (hbus : d'.bus = d.bus) : Connected d' := by
  obtain ⟨bus, hsome, hreplied⟩ := h
  exact ⟨bus, hbus.trans hsome, hreplied⟩

theorem sendResponse_bus (env : Env) (resp : Message) (d : Daemon) :
    (sendResponse env resp d).state.bus = d.bus := by
  rcases sendResponse_cases env resp d with ⟨-, h⟩ | ⟨e, device, -, h⟩ | ⟨written, -, h⟩
  · rw [h]
    rfl
  · rw [h]
    rfl
  · rw [h]
    rfl

theorem Connected.processIncoming (h : Connected d) (env : Env) (msg : Message) :
    Connected (processIncoming env msg d).state := by
  cases hexecute : d.table.executeCommand ⟨msg.netFn, msg.cmd⟩ msg.data with
  | some respData =>
    rw [processIncoming_local env hexecute]
    exact h.of_bus (sendResponse_bus env _ (d.responding msg respData))
  | none =>
    rw [processIncoming_forward env hexecute]
    obtain ⟨bus, hsome, hreplied⟩ := h
    rcases forwardToIpmid_cases env msg.netFn msg.lun msg.cmd msg.data msg.sessionId
      (d.received msg) with ⟨hnone, -⟩ | ⟨bus', hsome', ⟨-, hforward⟩ | ⟨-, hforward⟩⟩
    · rw [received, hsome] at hnone
      cases hnone
    · obtain rfl : bus = bus' := Option.some.inj (hsome.symm.trans hsome')
      rw [hforward]
      exact ⟨_, rfl, hreplied⟩
    · obtain rfl : bus = bus' := Option.some.inj (hsome.symm.trans hsome')
      rw [hforward]
      refine ⟨_, rfl, fun serial hserial => ?_⟩
      rw [List.length_append]
      exact Nat.lt_add_right _ (hreplied serial hserial)

theorem Connected.deliver (h : Connected d) (env : Env) (serial : Nat) (reply : Reply) :
    Connected (deliver env serial reply d).state := by
  obtain ⟨bus, hsome, hreplied⟩ := h
  rcases deliver_cases env serial reply d with
    ⟨-, hdeliver⟩ | ⟨bus', hsome', houtstanding, hresult⟩
  · rw [hdeliver]
    exact ⟨bus, hsome, hreplied⟩
  · obtain rfl : bus = bus' := Option.some.inj (hsome.symm.trans hsome')
    have harrived : Connected (d.arrived bus serial reply) := by
      refine ⟨_, rfl, fun other hother => ?_⟩
      rw [List.mem_append, List.mem_singleton] at hother
      rcases hother with hold | rfl
      · exact hreplied other hold
      · exact houtstanding.1
    rcases hresult with ⟨-, hdeliver⟩ | ⟨call, -, -, hdeliver⟩
    · rw [hdeliver]
      exact harrived
    · rw [hdeliver]
      apply harrived.of_bus
      apply replyCallback_keeps fun d d' => d'.bus = d.bus
      · intro d d' d'' hfirst hsecond
        exact hsecond.trans hfirst
      · intro resp d
        exact sendResponse_bus env resp _

end Daemon

end SerialIpmi
