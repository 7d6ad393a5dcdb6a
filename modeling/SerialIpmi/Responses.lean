import SerialIpmi.Basic.Recovery
import SerialIpmi.EventLoop
import SerialIpmi.Terminal.RoundTrip
import SerialIpmi.Library.BitField

/-! The responses on the line: what `sendResponse` packs into a frame, and what
a decoder of each mode reads back from it. -/
namespace SerialIpmi

open Decoding Framing ByteSum BitField

theorem IParser.encodeResponse_injective {p q : IParser} (hmode : p.mode = q.mode)
    {left right : List UInt8} (h : p.encodeResponse left = q.encodeResponse right) :
    left = right := by
  cases p with
  | terminal p =>
    cases q with
    | terminal q => exact Terminal.encodeResponse_injective p q h
    | basic q => simp [mode] at hmode
  | basic p =>
    cases q with
    | terminal q => simp [mode] at hmode
    | basic q =>
      have hencode : p.encodeResponse left = q.encodeResponse right := h
      rw [Basic.encodeResponse_eq, Basic.encodeResponse_eq] at hencode
      exact Basic.basicCode.encode_injective hencode

theorem IParser.encodeResponse_mode {p q : IParser} (hmode : p.mode = q.mode)
    (payload : List UInt8) : p.encodeResponse payload = q.encodeResponse payload := by
  cases p <;> cases q <;> first | rfl | simp [mode] at hmode

namespace Daemon

theorem responsePayload_eq (resp : Message) : ∃ csum1 csum2 : UInt8,
    responsePayload resp = resp.rqSA :: ((resp.netFn <<< 2) ||| (resp.lun &&& 0x03)) :: csum1 ::
      resp.rsSA :: ((resp.seqNum <<< 2) ||| (resp.lun &&& 0x03)) :: resp.cmd ::
      (resp.completionCode :: resp.data ++ [csum2]) := by
  exact ⟨_, _, rfl⟩

theorem validateChecksum_responsePayload (resp : Message) :
    Basic.validateChecksum (responsePayload resp) = true := by
  have hheader := complement_toNat
    (resp.rqSA.toUInt32 + ((resp.netFn <<< 2) ||| (resp.lun &&& 0x03)).toUInt32)
  have hbody := complement_toNat (resp.data.foldl (fun sum b => sum + b.toUInt16)
    (resp.rsSA.toUInt16 + ((resp.seqNum <<< 2) ||| (resp.lun &&& 0x03)).toUInt16 +
      resp.cmd.toUInt16 + resp.completionCode.toUInt16)).toUInt32
  have hdata := foldl_uint16 resp.data
    (resp.rsSA.toUInt16 + ((resp.seqNum <<< 2) ||| (resp.lun &&& 0x03)).toUInt16 +
      resp.cmd.toUInt16 + resp.completionCode.toUInt16)
  rw [Basic.validateChecksum_iff, responsePayload]
  refine ⟨by simp, ?_, ?_⟩
  · simp only [List.cons_append, List.take_succ_cons, List.take_zero, byteSum_cons, byteSum_nil,
      UInt32.toNat_add, UInt8.toNat_toUInt32] at hheader ⊢
    omega
  · simp only [List.cons_append, List.drop_succ_cons, List.drop_zero, byteSum_cons, byteSum_append,
      byteSum_nil, List.nil_append, UInt16.toNat_toUInt32, UInt16.toNat_add, UInt8.toNat_toUInt16]
      at hbody hdata ⊢
    omega

theorem parseBasicPayload_responsePayload (resp : Message) :
    parseBasicPayload (responsePayload resp) = {
      mode := some .basic
      rsSA := resp.rqSA
      netFn := resp.netFn % 64
      lun := resp.lun % 4
      rqSA := resp.rsSA
      seqNum := resp.seqNum % 64
      cmd := resp.cmd
      data := resp.completionCode :: resp.data } := by
  obtain ⟨csum1, csum2, hpayload⟩ := responsePayload_eq resp
  have hlast : (resp.completionCode :: (resp.data ++ [csum2])).dropLast =
      resp.completionCode :: resp.data := by
    rw [← List.cons_append, List.dropLast_concat]
  rw [hpayload, parseBasicPayload, if_neg (by simp)]
  simp [high_pack, low_pack, hlast]

/-- Every response is a valid frame, and a Basic-mode parser that is between frames reads it
back as one message, each field cut to the width that the layout has for it. -/
theorem response_consistent (resp : Message) (p : Basic.Parser)
    (hbetween : p.state = .msgNone ∨ p.state = .msgDone) :
    Basic.validateChecksum (responsePayload resp) = true ∧
      (IParser.basic (p.feedData (p.encodeResponse (responsePayload resp)))).drain =
        (IParser.basic p).drain ++ [{
          mode := some .basic
          rsSA := resp.rqSA
          netFn := resp.netFn % 64
          lun := resp.lun % 4
          rqSA := resp.rsSA
          seqNum := resp.seqNum % 64
          cmd := resp.cmd
          data := resp.completionCode :: resp.data
          rawFrame := responsePayload resp }] := by
  have hvalid := validateChecksum_responsePayload resp
  have hstate : p.state ≠ .msgEscape := by
    intro hescape
    simp [hescape] at hbetween
  have hcompleted := (p.completedMessages_encode_iff hvalid).mpr hstate
  refine ⟨hvalid, ?_⟩
  rw [IParser.drain_eq, IParser.drain_eq, IParser.payloads, IParser.payloads, hcompleted,
    List.map_append, List.map_singleton]
  simp only [IParser.mode, parsePayload, parseBasicPayload_responsePayload]

theorem response_consistent_wide :
    let resp : Message := { netFn := 0x47, lun := 0x07, seqNum := 0x81, cmd := 0x01 }
    let p : Basic.Parser := { state := .msgDone }
    (IParser.basic (p.feedData (p.encodeResponse (responsePayload resp)))).drain.map
      (fun msg => (msg.netFn, msg.lun, msg.seqNum)) = [(0x07, 0x03, 0x01)] := by
  intro resp p
  have hdrain := (response_consistent resp p (Or.inr rfl)).2
  rw [hdrain]
  decide +kernel

theorem responsePayload_length (resp : Message) :
    (responsePayload resp).length = resp.data.length + 8 := by
  simp [responsePayload]

theorem responsePayload_seqNum {a b : Message} (hnetFn : a.netFn = b.netFn) (hlun : a.lun = b.lun)
    (hcmd : a.cmd = b.cmd) (respData : List UInt8) :
    responsePayload (localResponse a respData) = responsePayload (localResponse b respData) ↔
      a.seqNum % 64 = b.seqNum % 64 := by
  constructor
  · intro h
    have hseqLun := congrArg (fun payload => payload[4]?) h
    simp only [responsePayload, localResponse, hlun, List.cons_append, List.getElem?_cons_succ,
      List.getElem?_cons_zero] at hseqLun
    exact (pack_eq_iff a.seqNum b.seqNum b.lun).mp (Option.some.inj hseqLun)
  · intro h
    have hseqLun := (pack_eq_iff a.seqNum b.seqNum b.lun).mpr h
    simp only [responsePayload, localResponse, hnetFn, hlun, hcmd, hseqLun]

theorem sendResponse_trace (env : Env) (resp : Message) {d : Daemon}
    (h : d.handler.channel.isSome) :
    (sendResponse env resp d).state.trace = d.trace ++ [.write (d.frame resp)] := by
  rcases sendResponse_cases env resp d with ⟨hnone, -⟩ | ⟨e, device, -, hsend⟩ | ⟨written, -, hsend⟩
  · simp [hnone] at h
  · rw [hsend]
    rfl
  · rw [hsend]
    rfl

end Daemon

def responseOf (t : Table) (msg : Message) : Option Message :=
  (t.executeCommand ⟨msg.netFn, msg.cmd⟩ msg.data).map (Daemon.localResponse msg)

def Action.written : Action → Option (List UInt8)
  | .write bytes => some bytes
  | _ => none

/-- The header, completion code and data that a Terminal-mode decoder reads in a frame
are those of the response. -/
def ReadsBack (resp : Message) (frame : List UInt8) : Prop :=
  (((createParser .terminal).feedData frame).drain.map fun m =>
    (m.netFn, m.lun, m.seqNum, m.cmd, m.data)) =
    [(resp.netFn, resp.lun, resp.seqNum, resp.cmd, resp.completionCode :: resp.data)]

instance (resp : Message) (frame : List UInt8) : Decidable (ReadsBack resp frame) := by
  unfold ReadsBack
  infer_instance

theorem parsePayload_basic_fields (payload : List UInt8) :
    (parsePayload .basic payload).netFn % 64 = (parsePayload .basic payload).netFn ∧
      (parsePayload .basic payload).lun % 4 = (parsePayload .basic payload).lun ∧
      (parsePayload .basic payload).seqNum % 64 = (parsePayload .basic payload).seqNum := by
  have hhigh : ∀ byte : UInt8, (byte >>> 2) % (64 : UInt8) = byte >>> 2 := by decide +kernel
  have hlow : ∀ byte : UInt8, (byte &&& 0x03) % (4 : UInt8) = byte &&& 0x03 := by decide +kernel
  by_cases hshort : payload.length < 7
  · simp [parsePayload, parseBasicPayload, hshort]
  · simp only [parsePayload, parseBasicPayload, hshort, if_false]
    exact ⟨hhigh _, hlow _, hhigh _⟩

theorem parseTerminalPayload_data_length (payload : List UInt8) :
    (parseTerminalPayload payload).data.length = payload.length - 3 := by
  unfold parseTerminalPayload
  by_cases hshort : payload.length < 3
  · simp [hshort]
    omega
  · by_cases hdata : payload.length > 3
    · simp [hshort, hdata]
    · simp [hshort, hdata]
      omega

namespace Daemon

def written (d : Daemon) : List (List UInt8) :=
  d.trace.filterMap Action.written

theorem sendResponse_written (env : Env) (resp : Message) {d : Daemon}
    (h : d.handler.channel.isSome) :
    (sendResponse env resp d).state.written = d.written ++ [d.frame resp] := by
  rw [written, sendResponse_trace env resp h, List.filterMap_append]
  rfl

theorem processIncoming_written (env : Env) {msg : Message} {d : Daemon} {respData : List UInt8}
    (h : d.table.executeCommand ⟨msg.netFn, msg.cmd⟩ msg.data = some respData)
    (hchannel : d.handler.channel.isSome) :
    (processIncoming env msg d).state.written =
      d.written ++ [d.frame (localResponse msg respData)] := by
  have hresponding : (d.responding msg respData).written = d.written := by
    rw [written, written, responding, List.filterMap_append]
    simp [Action.written]
  have hframe : (d.responding msg respData).frame (localResponse msg respData) =
      d.frame (localResponse msg respData) := rfl
  rw [processIncoming_local env h, sendResponse_written env _ (d := d.responding msg respData) hchannel,
    hresponding, hframe]

/-- No response of the Terminal mode reads back: it is packed in the Basic-mode layout,
which is four bytes longer. -/
theorem terminal_response_misread (env : Env) (d : Daemon) (resp : Message) (frame : List UInt8)
    (hmode : d.handler.parser.mode = .terminal)
    (hwritten : (sendResponse env resp d).state.written = d.written ++ [frame]) :
    ¬ ReadsBack resp frame := by
  have hframe : frame = d.frame resp := by
    cases hchannel : d.handler.channel with
    | none => simp [sendResponse, hchannel] at hwritten
    | some channel =>
      rw [sendResponse_written env resp (by simp [hchannel])] at hwritten
      simpa using hwritten.symm
  have hpayloads : ((createParser .terminal).feedData frame).drain =
      if 1 ≤ (responsePayload resp).length ∧ (responsePayload resp).length ≤ 80 then
        [parsePayload .terminal (responsePayload resp)] else [] := by
    rw [IParser.drain_createParser, streamMessages, streamPayloads, hframe, Daemon.frame]
    cases hparser : d.handler.parser with
    | terminal p =>
      rw [IParser.encodeResponse, Terminal.streamPayload_encodeResponse]
      split_ifs <;> rfl
    | basic p => simp [hparser, IParser.mode] at hmode
  intro hreads
  unfold ReadsBack at hreads
  rw [hpayloads] at hreads
  split_ifs at hreads with hfits
  · have hdata := congrArg (fun fields => fields.map fun field => field.2.2.2.2.length) hreads
    simp only [List.map_cons, List.map_nil, parsePayload, parseTerminalPayload_data_length,
      responsePayload_length, List.length_cons, List.cons.injEq] at hdata
    omega
  · simp at hreads

/-- A response to Set Session Privilege Level, and the request that it reads back as. -/
theorem terminal_response_layout :
    let resp : Message := { netFn := 0x07, seqNum := 0x01, cmd := 0x3B, data := [0x04] }
    let d := start .terminal (some ⟨"/dev/ttyAMA1", 3⟩) "serial0" (some {})
    (sendResponse .reliable resp d).state.written = [d.frame resp] ∧
      ((createParser .terminal).feedData (d.frame resp)).drain.map
        (fun m => (m.netFn, m.lun, m.seqNum, m.cmd, m.data)) =
          [(0x20, 0x01, 0x1C, 0x63, [0x20, 0x04, 0x3B, 0x00, 0x04, 0x9D])] ∧
      ¬ ReadsBack resp (d.frame resp) := by
  decide +kernel

theorem terminal_response_misread_privilege :
    let resp : Message := { netFn := 0x07, seqNum := 0x01, cmd := 0x3B, data := [0x04] }
    ¬ ReadsBack resp
      ((start .terminal (some ⟨"/dev/ttyAMA1", 3⟩) "serial0" (some {})).frame resp) :=
  terminal_response_misread .reliable _ _ _ rfl
    (sendResponse_written .reliable { netFn := 0x07, seqNum := 0x01, cmd := 0x3B, data := [0x04] } rfl)

/-- Two requests that differ in their sequence number only are answered by different
frames exactly when the difference is in the low six bits, which it always is in Basic mode. -/
theorem responses_distinguishable (env env' : Env) (mode : ProtocolMode) (d d' : Daemon)
    (stream stream' : List UInt8) (a b : Message)
    (hmode : d.handler.parser.mode = mode) (hmode' : d'.handler.parser.mode = mode)
    (htable : d.table = sessionTable) (htable' : d'.table = sessionTable)
    (hchannel : d.handler.channel.isSome) (hchannel' : d'.handler.channel.isSome)
    (ha : a ∈ ((createParser mode).feedData stream).drain)
    (hb : b ∈ ((createParser mode).feedData stream').drain)
    (hregistered : Registered ⟨a.netFn, a.cmd⟩)
    (hnetFn : a.netFn = b.netFn) (hlun : a.lun = b.lun) (hcmd : a.cmd = b.cmd)
    (hdata : a.data = b.data) (hseqNum : a.seqNum ≠ b.seqNum) :
    ∃ frame frame', (processIncoming env a d).state.written = d.written ++ [frame] ∧
      (processIncoming env' b d').state.written = d'.written ++ [frame'] ∧
      (frame ≠ frame' ↔ mode = .basic ∨ a.seqNum % 64 ≠ b.seqNum % 64) := by
  obtain ⟨respData, hrespData⟩ :=
    Option.isSome_iff_exists.mp ((sessionTable_isSome ⟨a.netFn, a.cmd⟩ a.data).mpr hregistered)
  have hexecute : d.table.executeCommand ⟨a.netFn, a.cmd⟩ a.data = some respData := by
    rw [htable, hrespData]
  have hexecute' : d'.table.executeCommand ⟨b.netFn, b.cmd⟩ b.data = some respData := by
    rw [htable', ← hnetFn, ← hcmd, ← hdata, hrespData]
  have hlocal := processIncoming_written env hexecute hchannel
  have hlocal' := processIncoming_written env' hexecute' hchannel'
  refine ⟨_, _, hlocal, hlocal', ?_⟩
  have hframes : d.frame (localResponse a respData) = d'.frame (localResponse b respData) ↔
      a.seqNum % 64 = b.seqNum % 64 := by
    rw [← responsePayload_seqNum hnetFn hlun hcmd respData]
    refine ⟨IParser.encodeResponse_injective (hmode.trans hmode'.symm), fun h => ?_⟩
    rw [frame, h, IParser.encodeResponse_mode (hmode.trans hmode'.symm)]
    rfl
  have hwidth : mode = .basic → a.seqNum % 64 ≠ b.seqNum % 64 := by
    rintro rfl
    rw [IParser.drain_createParser] at ha hb
    obtain ⟨payload, -, rfl⟩ := List.mem_map.mp ha
    obtain ⟨payload', -, rfl⟩ := List.mem_map.mp hb
    rwa [(parsePayload_basic_fields payload).2.2, (parsePayload_basic_fields payload').2.2]
  rw [ne_eq, hframes]
  exact ⟨Or.inr, fun h => h.elim hwidth id⟩

theorem responses_distinguishable_basic :
    let d := start .basic (some ⟨"/dev/ttyAMA1", 3⟩) "serial0" (some {})
    ∃ frame frame',
      (processIncoming .reliable
        (parsePayload .basic [0x20, 0x18, 0xC8, 0x81, 0x04, 0x3B, 0x40]) d).state.written =
          [frame] ∧
      (processIncoming .reliable
        (parsePayload .basic [0x20, 0x18, 0xC8, 0x81, 0x08, 0x3B, 0x3C]) d).state.written =
          [frame'] ∧
      (frame ≠ frame' ↔ ProtocolMode.basic = .basic ∨ (1 : UInt8) % 64 ≠ 2 % 64) :=
  responses_distinguishable .reliable .reliable .basic _ _
    [0xA0, 0x20, 0x18, 0xC8, 0x81, 0x04, 0x3B, 0x40, 0xA5]
    [0xA0, 0x20, 0x18, 0xC8, 0x81, 0x08, 0x3B, 0x3C, 0xA5] _ _
    rfl rfl rfl rfl rfl rfl (by decide +kernel) (by decide +kernel) (by decide +kernel)
    rfl rfl rfl rfl (by decide +kernel)

/-- `[18 00 3B]` and `[18 40 3B]` get the same answer. -/
theorem responses_indistinguishable :
    let d := start .terminal (some ⟨"/dev/ttyAMA1", 3⟩) "serial0" (some {})
    let a := parsePayload .terminal [0x18, 0x00, 0x3B]
    let b := parsePayload .terminal [0x18, 0x40, 0x3B]
    a ∈ ((createParser .terminal).feedData
        [0x5B, 0x31, 0x38, 0x20, 0x30, 0x30, 0x20, 0x33, 0x42, 0x5D]).drain ∧
      b ∈ ((createParser .terminal).feedData
        [0x5B, 0x31, 0x38, 0x20, 0x34, 0x30, 0x20, 0x33, 0x42, 0x5D]).drain ∧
      Registered ⟨a.netFn, a.cmd⟩ ∧ a.netFn = b.netFn ∧ a.lun = b.lun ∧ a.cmd = b.cmd ∧
      a.data = b.data ∧ a.seqNum ≠ b.seqNum ∧
      (processIncoming .reliable a d).state.written ≠ [] ∧
      ¬ (processIncoming .reliable a d).state.written ≠
        (processIncoming .reliable b d).state.written := by
  decide +kernel

end Daemon

end SerialIpmi
