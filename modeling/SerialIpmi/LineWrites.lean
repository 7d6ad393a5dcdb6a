import SerialIpmi.EventLoop

/-! What the operating system does to a write. A short write leaves a truncated frame on the
line that counts as sent; a failed write costs no command. -/
namespace SerialIpmi

theorem flatten_eq_iff {α : Type*} {chunks frames : List (List α)}
    (h : List.Forall₂ (fun chunk frame => chunk <+: frame) chunks frames) :
    chunks.flatten = frames.flatten ↔ chunks = frames := by
  refine ⟨?_, fun heq => by rw [heq]⟩
  have hshorter : ∀ {chunks frames : List (List α)},
      List.Forall₂ (fun chunk frame => chunk <+: frame) chunks frames →
        chunks.flatten.length ≤ frames.flatten.length := by
    intro chunks frames h
    induction h with
    | nil => exact Nat.le_refl _
    | cons hfirst _ ih =>
      rw [List.flatten_cons, List.flatten_cons, List.length_append, List.length_append]
      exact Nat.add_le_add hfirst.length_le ih
  induction h with
  | nil => intro _; rfl
  | @cons chunk frame chunks frames hfirst hrest ih =>
    intro heq
    have hlength := congrArg List.length heq
    have htail := hshorter hrest
    have hle := hfirst.length_le
    rw [List.flatten_cons, List.flatten_cons, List.length_append, List.length_append] at hlength
    have hwhole : chunk = frame := hfirst.eq_of_length (by omega)
    rw [hwhole, List.flatten_cons, List.flatten_cons, List.append_cancel_left_eq] at heq
    rw [hwhole, ih heq]

namespace Daemon

theorem each_sendResponse {env : Env} {resps : List Message} {d d' : Daemon}
    (hchannel : d.handler.channel.isSome)
    (hrun : Outcome.each (sendResponse env) resps d = .ok d') :
    ∃ chunks, d'.device.accepted = d.device.accepted ++ chunks ∧
      d'.framesSent = d.framesSent + UInt64.ofNat resps.length ∧
      List.Forall₂ (fun chunk frame => chunk <+: frame) chunks (resps.map d.frame) ∧
      (chunks = resps.map d.frame ↔ ∀ call ∈ resps.zipIdx d.device.writes,
        env.write call.2 (d.frame call.1) = some (Fin.last _)) := by
  induction resps generalizing d with
  | nil =>
    rw [← Outcome.ok.inj hrun]
    exact ⟨[], (List.append_nil _).symm, (UInt64.add_zero _).symm, .nil, by simp⟩
  | cons resp resps ih =>
    rw [Outcome.each_cons] at hrun
    obtain ⟨middle, hsend, hrest⟩ := Outcome.andThen_eq_ok hrun
    rcases sendResponse_cases env resp d with ⟨hnone, -⟩ | ⟨e, device, -, h⟩ | ⟨written, hwritten, h⟩
    · simp [hnone] at hchannel
    · simp [h] at hsend
    · rw [h] at hsend
      have hmiddle := Outcome.ok.inj hsend
      have hframe : middle.frame = d.frame := by
        rw [← hmiddle]
        rfl
      have hchannel' : middle.handler.channel.isSome := by
        rw [← hmiddle]
        exact hchannel
      obtain ⟨chunks, haccepted, hsent, hprefix, hwhole⟩ := ih hchannel' hrest
      have hwrites : middle.device.writes = d.device.writes + 1 := by rw [← hmiddle]
      rw [hframe] at hprefix
      rw [hframe, hwrites] at hwhole
      refine ⟨(d.frame resp).take written :: chunks, ?_, ?_, ?_, ?_⟩
      · rw [haccepted, ← hmiddle]
        exact List.append_assoc ..
      · rw [hsent, ← hmiddle, List.length_cons, UInt64.ofNat_add]
        exact (UInt64.add_assoc ..).trans (congrArg _ (UInt64.add_comm ..))
      · exact .cons (List.take_prefix _ _) hprefix
      · have hall : (d.frame resp).take written = d.frame resp ↔ written = Fin.last _ := by
          rw [List.take_eq_self_iff, Fin.ext_iff, Fin.val_last]
          have := written.is_le
          omega
        rw [List.map_cons, List.cons.injEq, List.zipIdx_cons, List.forall_mem_cons, hwhole, hall,
          hwritten, Option.some_inj]

/-- In a run that does not throw, each response counts as a frame sent. The line has received
the complete frames exactly when every system call accepted all that it was asked to write. -/
theorem frames_whole_iff (env : Env) (resps : List Message) (d d' : Daemon)
    (hchannel : d.handler.channel.isSome)
    (hrun : Outcome.each (sendResponse env) resps d = .ok d') :
    d'.framesSent = d.framesSent + UInt64.ofNat resps.length ∧
      (d'.device.accepted.flatten = d.device.accepted.flatten ++ (resps.map d.frame).flatten ↔
        ∀ call ∈ resps.zipIdx d.device.writes,
          env.write call.2 (d.frame call.1) = some (Fin.last _)) := by
  obtain ⟨chunks, haccepted, hsent, hprefix, hwhole⟩ := each_sendResponse hchannel hrun
  refine ⟨hsent, ?_⟩
  rw [haccepted, List.flatten_append, List.append_cancel_left_eq, flatten_eq_iff hprefix, hwhole]

theorem frames_whole_reliable :
    let d := start .basic (some ⟨"/dev/ttyAMA1", 3⟩) "serial0" none
    let resps : List Message :=
      [{ netFn := 0x07, cmd := 0x3B, data := [0x04] }, { netFn := 0x07, cmd := 0x3C }]
    (Outcome.each (sendResponse .reliable) resps d).state.device.accepted.flatten =
      (resps.map d.frame).flatten := by
  intro d resps
  have hok := Outcome.eq_ok_of_isOk (r := Outcome.each (sendResponse .reliable) resps d)
    (by decide +kernel)
  exact (frames_whole_iff .reliable resps d _ rfl hok).2.mpr fun _ _ => rfl

/-- A line that takes eight bytes at a time: the frame is cut off, and counts as sent. -/
theorem frame_truncated :
    let env : Env := {
      write := fun _ bytes => some ⟨min 8 bytes.length, Nat.lt_succ_of_le (Nat.min_le_right ..)⟩
      callAsync := fun _ => true }
    let d := start .basic (some ⟨"/dev/ttyAMA1", 3⟩) "serial0" none
    let resp : Message := { netFn := 0x07, cmd := 0x3B, data := [0x04] }
    let sent := Outcome.each (sendResponse env) [resp] d
    sent.isOk = true ∧ sent.state.framesSent = 1 ∧
      sent.state.device.accepted.flatten = [0xA0, 0x81, 0x1C, 0x63, 0x20, 0x00, 0x3B, 0x00] ∧
      sent.state.device.accepted.flatten ≠ d.device.accepted.flatten ++ d.frame resp := by
  decide +kernel

/-- The commands of a stream are those of its frames, whatever writes and calls throw: none is
repeated and none is lost. -/
theorem commands_survive_failures (env env' : Env) (mode : ProtocolMode) (channel : Option Channel)
    (channelName : String) (bus : Option Bus) (table : Table) (bytes : List UInt8) :
    let fresh : Daemon := { start mode channel channelName bus with table }
    let failing := Outcome.eachCaught (processByte env) bytes fresh
    let reliable := Outcome.eachCaught (processByte env') bytes fresh
    failing.trace.filterMap Action.dispatched = reliable.trace.filterMap Action.dispatched ∧
      failing.trace.filterMap Action.dispatched = streamMessages mode bytes := by
  intro fresh failing reliable
  have hdispatched : ∀ env : Env,
      (Outcome.eachCaught (processByte env) bytes fresh).trace.filterMap Action.dispatched =
        streamMessages mode bytes := by
    intro env
    have hsettled := (settled_fresh mode channel channelName bus table).processBytes env bytes
    rw [List.nil_append] at hsettled
    exact hsettled.dispatched
  exact ⟨(hdispatched env).trans (hdispatched env').symm, hdispatched env⟩

end Daemon

end SerialIpmi
