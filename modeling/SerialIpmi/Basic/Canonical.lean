import Mathlib.Data.FinEnum
import SerialIpmi.Basic.Stream

/-! Canonical Basic-mode frames. The decoder takes a raw handshake byte and any byte behind an
escape, and the encoder writes neither unless it must. -/
namespace SerialIpmi.Basic

open Decoding Framing

/-- What stands between the START and the STOP of one frame, cut into its units. No escape
is left dangling, and no unit is a START or a STOP. -/
structure FrameBody (body : List UInt8) (units : List (Piece UInt8)) : Prop where
  pieces : basicCode.pieces body = some units
  noStart : .plain bmcStart ∉ units
  noStop : .plain bmcStop ∉ units

theorem FrameBody.run {body : List UInt8} {units : List (Piece UInt8)} (h : FrameBody body units) :
    run basicCode.step .outside (bmcStart :: (body ++ [bmcStop])) =
      (.outside, [units.map basicCode.value]) := by
  have hstart : Decoding.run basicCode.step .outside (bmcStart :: (body ++ [bmcStop])) =
      Decoding.run basicCode.step (.inside []) (body ++ [bmcStop]) :=
    basicCode.run_start (by simp) (body ++ [bmcStop])
  have hbody := basicCode.run_pieces h.pieces h.noStart h.noStop [] [bmcStop]
  have hstop : Decoding.run basicCode.step (.inside (units.map basicCode.value)) [bmcStop] =
      (.outside, [units.map basicCode.value]) := by
    have hescape : bmcStop ≠ bmcEscape := by decide
    simp [run_cons, Code.step, basicCode, hescape]
  exact hstart.trans (hbody.trans hstop)

theorem canonical_plain : ∀ a : UInt8, a ≠ bmcStart → a ≠ bmcStop → a ≠ bmcEscape →
    (basicCode.canonical (.plain a) ↔ a ≠ bmcHandshake) := by
  intro a hstart hstop hescape
  simp [Code.canonical, basicCode, hstart, hstop, hescape]

theorem canonical_escaped : ∀ a : UInt8,
    basicCode.canonical (.escaped a) ↔ a ∈ [0xB0, 0xB5, 0xB6, 0xBA] := by
  decide +kernel

/-- Encoding the delivered payload gives the frame back exactly when no handshake byte stands
for itself and only the four reserved bytes were escaped. -/
theorem encode_undoes_decode_iff (p : Parser) (body payload : List UInt8)
    (units : List (Piece UInt8)) (hstate : p.state = .msgNone) (hbody : FrameBody body units)
    (hdelivered : (p.feedData (bmcStart :: (body ++ [bmcStop]))).completedMessages =
      p.completedMessages ++ [payload]) :
    p.encodeResponse payload = bmcStart :: (body ++ [bmcStop]) ↔
      .plain bmcHandshake ∉ units ∧
        ∀ a, .escaped a ∈ units → a ∈ [(0xB0 : UInt8), 0xB5, 0xB6, 0xBA] := by
  have hposition : p.position = .outside := by
    unfold Parser.position
    rw [hstate]
  have hpayload : payload = units.map basicCode.value := by
    rw [Parser.completedMessages_feedData, hposition, hbody.run, List.append_cancel_left_eq,
      filterMap_keep] at hdelivered
    have hmem : payload ∈ [units.map basicCode.value].filter fun m => validateChecksum m := by
      rw [hdelivered]
      exact List.mem_singleton_self payload
    exact List.mem_singleton.mp (List.mem_filter.mp hmem).1
  have hwhole : p.encodeResponse payload = bmcStart :: (body ++ [bmcStop]) ↔
      (units.map basicCode.value).flatMap basicCode.stuff = body := by
    rw [Parser.encodeResponse, encodeByte_eq, hpayload, List.cons_inj_right,
      List.append_left_inj]
  have hnoEscape : .plain bmcEscape ∉ units := basicCode.escape_notMem_pieces hbody.pieces
  rw [hwhole, basicCode.stuffed_values_iff hbody.pieces]
  constructor
  · intro hcanonical
    constructor
    · intro hhandshake
      exact absurd (hcanonical _ hhandshake) (by decide)
    · intro a ha
      exact (canonical_escaped a).mp (hcanonical _ ha)
  · rintro ⟨hhandshake, hescaped⟩ unit hunit
    cases unit with
    | plain a =>
      have hne : ∀ b, .plain b ∉ units → a ≠ b := by
        rintro b hb rfl
        exact hb hunit
      exact (canonical_plain a (hne _ hbody.noStart) (hne _ hbody.noStop)
        (hne _ hnoEscape)).mpr (hne _ hhandshake)
    | escaped a => exact (canonical_escaped a).mpr (hescaped a hunit)

theorem encode_undoes_decode_escaped :
    let p : Parser := {}
    p.encodeResponse [0x20, 0x18, 0xC8, 0x81, 0x04, 0x3A, 0xA0, 0xA1] =
      bmcStart :: ([0x20, 0x18, 0xC8, 0x81, 0x04, 0x3A, 0xAA, 0xB0, 0xA1] ++ [bmcStop]) := by
  intro p
  have hbody : FrameBody [0x20, 0x18, 0xC8, 0x81, 0x04, 0x3A, 0xAA, 0xB0, 0xA1]
      [.plain 0x20, .plain 0x18, .plain 0xC8, .plain 0x81, .plain 0x04, .plain 0x3A,
        .escaped 0xB0, .plain 0xA1] := ⟨by decide, by decide, by decide⟩
  exact (encode_undoes_decode_iff p _ _ _ rfl hbody (by decide)).mpr
    ⟨by decide, by intro a ha; simp at ha; simp [ha]⟩

end SerialIpmi.Basic
