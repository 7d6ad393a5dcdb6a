import SerialIpmi.Terminal.Stream

/-! The digits of Terminal-mode frames: what the parser keeps of them in its buffer, and what
of them a delivered payload spells. -/
namespace SerialIpmi.Terminal

open Decoding

namespace Parser

theorem valid_runOps {p : Parser} (hp : p.Valid) (ops : List (Op UInt8)) :
    (runOps p ops).2.Valid ∧ ∀ m ∈ (runOps p ops).1, 1 ≤ m.length ∧ m.length ≤ 80 := by
  induction ops generalizing p with
  | nil => exact ⟨hp, by simp [runOps]⟩
  | cons op ops ih =>
    cases op with
    | feed data => exact ih (valid_feedData hp data)
    | pop =>
      obtain ⟨hvalid, hpopped⟩ := ih (valid_pop hp)
      refine ⟨hvalid, ?_⟩
      cases hqueue : p.completed with
      | nil => simpa [runOps, hasCompleteMessage, hqueue] using hpopped
      | cons payload rest =>
        have hfront : p.getNextMessagePayload.1 = payload := by
          unfold getNextMessagePayload
          rw [hqueue]
        have hlength := hp.payloads payload (by rw [hqueue]; exact List.mem_cons_self)
        simpa [runOps, hasCompleteMessage, hqueue, hfront] using And.intro hlength hpopped

end Parser

theorem hexValue_ne : ∀ c : UInt8, isHexDigit c = true →
    ¬ (c = space ∨ c = lineFeed ∨ c = carriageReturn ∨ c = tab) ∧ hexValue c ≠ 0xFF := by
  decide +kernel

/-- After any bytes and pops the buffer holds at most 160 hex digits, none of them outside a
frame, and every completed payload has 1 to 80 bytes. So decoding the buffer skips no
character and breaks off at none. -/
theorem buffer_digits (ops : List (Op UInt8)) :
    let completed := (Parser.runOps {} ops).1
    let p := (Parser.runOps {} ops).2
    (∀ c ∈ p.hexBuffer, isHexDigit c = true) ∧ p.hexBuffer.length ≤ 160 ∧
      (p.state ≠ .receivingHex → p.hexBuffer = []) ∧
      (∀ m ∈ completed ++ p.completed, 1 ≤ m.length ∧ m.length ≤ 80) ∧
      ∀ c ∈ p.hexBuffer, ¬ (c = space ∨ c = lineFeed ∨ c = carriageReturn ∨ c = tab) ∧
        hexValue c ≠ 0xFF := by
  intro completed p
  obtain ⟨hvalid, hpopped⟩ := Parser.valid_runOps Parser.valid_fresh ops
  refine ⟨hvalid.digits, hvalid.bound, hvalid.empty, ?_, ?_⟩
  · intro m hm
    rcases List.mem_append.mp hm with hold | hwaiting
    · exact hpopped m hold
    · exact hvalid.payloads m hwaiting
  · intro c hc
    exact hexValue_ne c (hvalid.digits c hc)

def upperCase (c : UInt8) : UInt8 :=
  if 0x61 ≤ c ∧ c ≤ 0x66 then c - 0x20 else c

theorem hexDigit_digitValue : ∀ c : UInt8, isHexDigit c = true →
    Parser.hexDigit (UInt8.ofNat (digitValue c)) = upperCase c := by
  decide +kernel

theorem hexByte_nibbles : ∀ hi < 16, ∀ lo < 16, Parser.hexByte (UInt8.ofNat (16 * hi + lo)) =
    [Parser.hexDigit (UInt8.ofNat hi), Parser.hexDigit (UInt8.ofNat lo)] := by
  decide +kernel

theorem hexByte_pairBytes {digits : List UInt8} (h : ∀ c ∈ digits, isHexDigit c = true)
    (heven : digits.length % 2 = 0) :
    (pairBytes digits).flatMap Parser.hexByte = digits.map upperCase := by
  fun_induction pairBytes digits with
  | case1 hi lo rest ih =>
    have hhi : isHexDigit hi = true := h hi (by simp)
    have hlo : isHexDigit lo = true := h lo (by simp)
    have hbyte : Parser.hexByte (pairByte hi lo) = [upperCase hi, upperCase lo] := by
      unfold pairByte
      rw [hexByte_nibbles _ ((isHexDigit_iff hi).mp hhi) _ ((isHexDigit_iff lo).mp hlo),
        hexDigit_digitValue hi hhi, hexDigit_digitValue lo hlo]
    have hrest : rest.length % 2 = 0 := by
      simp only [List.length_cons] at heven
      omega
    rw [List.flatMap_cons, hbyte, ih (fun c hc => h c (by simp [hc])) hrest]
    rfl
  | case2 digits hshort =>
    cases digits with
    | nil => rfl
    | cons hi tail =>
      cases tail with
      | nil => simp at heven
      | cons lo rest => exact (hshort hi lo rest rfl).elim

theorem takeFrame_digits {limit : Nat} {input rest : List UInt8} {frame : Frame}
    (h : takeFrame limit input = some (frame, rest)) : ∀ c ∈ frame.digits, isHexDigit c = true := by
  fun_induction takeFrame limit input generalizing frame rest with
  | case1 => simp at h
  | case2 limit tail ih => exact ih h
  | case3 ch tail =>
    obtain ⟨rfl, -⟩ := Prod.mk.inj (Option.some.inj h)
    simp
  | case4 ch tail hspace hdigit limit ih =>
    obtain ⟨⟨taken, left⟩, htaken, heq⟩ := Option.map_eq_some_iff.mp h
    obtain ⟨rfl, -⟩ := Prod.mk.inj heq
    intro c hc
    rcases List.mem_cons.mp hc with rfl | hc
    · exact hdigit
    · exact ih htaken c hc
  | case5 limit ch tail =>
    obtain ⟨rfl, -⟩ := Prod.mk.inj (Option.some.inj h)
    simp

theorem frames_digits (stream : List UInt8) :
    ∀ frame ∈ frames stream, ∀ c ∈ frame.digits, isHexDigit c = true := by
  fun_induction frames stream with
  | case1 => simp
  | case2 => simp
  | case3 rest frame left htaken ih =>
    intro frame' hframe
    rcases List.mem_cons.mp hframe with rfl | hlater
    · exact takeFrame_digits htaken
    · exact ih frame' hlater
  | case4 ch rest h ih => exact ih

namespace Frame

/-- The digits form whole bytes, at least one, and the end is not a rejection. -/
def Whole (frame : Frame) : Prop :=
  frame.ending.discards = false ∧ 1 ≤ frame.digits.length ∧ frame.digits.length % 2 = 0

/-- What is to be rejected: digits that form no whole bytes, `[]`, and every frame that a
character it cannot take ends. -/
def Rejected (frame : Frame) : Prop :=
  frame.ending.discards = true ∨ frame.digits.length % 2 = 1 ∨
    (frame.ending = .bracket ∧ frame.digits.length = 0)

/-- Three digits or more, the last of them without a partner. -/
def Cut (frame : Frame) : Prop :=
  frame.ending.discards = false ∧ 3 ≤ frame.digits.length ∧ frame.digits.length % 2 = 1

instance : DecidablePred Whole := fun frame => by
  unfold Whole
  infer_instance

instance : DecidablePred Rejected := fun frame => by
  unfold Rejected
  infer_instance

instance : DecidablePred Cut := fun frame => by
  unfold Cut
  infer_instance

/-- The digits of the payload are those of the frame, up to letter case. -/
def Spells (frame : Frame) (payload : List UInt8) : Prop :=
  payload.flatMap Parser.hexByte = frame.digits.map upperCase

theorem payload_of_not_cut {frame : Frame} (hcut : ¬ frame.Cut) :
    frame.payload = if frame.Whole then some (pairBytes frame.digits) else none := by
  have hwhole : (¬ frame.ending.discards ∧ 2 ≤ frame.digits.length) ↔ frame.Whole := by
    unfold Cut at hcut
    unfold Whole
    cases hdiscards : frame.ending.discards with
    | true => simp
    | false =>
      simp only [hdiscards, true_and, Bool.false_eq_true, not_false_iff] at hcut ⊢
      omega
  unfold payload
  exact if_congr hwhole rfl rfl

theorem framesError_of_not_cut {frame : Frame} (hcut : ¬ frame.Cut) :
    frame.framesError = if frame.Rejected then 1 else 0 := by
  obtain ⟨digits, ending⟩ := frame
  unfold Cut at hcut
  unfold framesError Rejected
  cases ending with
  | overflow => simp [Ending.discards]
  | illegal => simp [Ending.discards]
  | bracket =>
    simp only [Ending.discards, true_and, Bool.false_eq_true, false_or] at hcut ⊢
    apply if_congr ?_ rfl rfl
    omega
  | newline =>
    simp only [Ending.discards, true_and, Bool.false_eq_true, false_or, reduceCtorEq, false_and,
      or_false] at hcut ⊢
    apply if_congr ?_ rfl rfl
    omega

theorem payload_of_cut {frame : Frame} (hcut : frame.Cut) :
    frame.payload = some (pairBytes frame.digits) ∧ ¬ frame.Whole := by
  obtain ⟨hdiscards, hthree, hodd⟩ := hcut
  have hdelivers : ¬ frame.ending.discards ∧ 2 ≤ frame.digits.length := by
    rw [hdiscards]
    exact ⟨Bool.false_ne_true, by omega⟩
  refine ⟨if_pos hdelivers, ?_⟩
  intro hwhole
  have heven := hwhole.2.2
  omega

end Frame

theorem delivered_length (fs : List Frame) :
    (fs.filterMap Frame.payload).length =
      (fs.filter fun frame => frame.Whole).length + fs.countP fun frame => frame.Cut := by
  induction fs with
  | nil => rfl
  | cons frame fs ih =>
    by_cases hcut : frame.Cut
    · obtain ⟨hpayload, hwhole⟩ := Frame.payload_of_cut hcut
      simp [hpayload, hwhole, hcut, ih, Nat.add_assoc]
    · have hpayload := Frame.payload_of_not_cut hcut
      by_cases hwhole : frame.Whole
      · simp [hpayload, hwhole, hcut, ih, Nat.add_right_comm]
      · simp [hpayload, hwhole, hcut, ih]

theorem delivered_spells {fs : List Frame} (hcut : ∀ frame ∈ fs, ¬ frame.Cut)
    (hdigits : ∀ frame ∈ fs, ∀ c ∈ frame.digits, isHexDigit c = true) :
    List.Forall₂ Frame.Spells (fs.filter fun frame => frame.Whole) (fs.filterMap Frame.payload) := by
  induction fs with
  | nil => exact .nil
  | cons frame fs ih =>
    have hrest := ih (fun frame' h => hcut frame' (List.mem_cons_of_mem frame h))
      (fun frame' h => hdigits frame' (List.mem_cons_of_mem frame h))
    have hpayload := Frame.payload_of_not_cut (hcut frame List.mem_cons_self)
    by_cases hwhole : frame.Whole
    · rw [if_pos hwhole] at hpayload
      rw [List.filter_cons_of_pos (by simpa using hwhole), List.filterMap_cons_some hpayload]
      exact .cons (hexByte_pairBytes (hdigits frame List.mem_cons_self) hwhole.2.2) hrest
    · rw [if_neg hwhole] at hpayload
      rw [List.filter_cons_of_neg (by simpa using hwhole), List.filterMap_cons_none hpayload]
      exact hrest

theorem framesError_sum {fs : List Frame} (hcut : ∀ frame ∈ fs, ¬ frame.Cut) :
    (fs.map Frame.framesError).sum = fs.countP fun frame => frame.Rejected := by
  induction fs with
  | nil => rfl
  | cons frame fs ih =>
    have hrest := ih fun frame' h => hcut frame' (List.mem_cons_of_mem frame h)
    have herror := Frame.framesError_of_not_cut (hcut frame List.mem_cons_self)
    rw [List.map_cons, List.sum_cons, List.countP_cons, hrest, herror, Nat.add_comm]
    simp

/-- Each whole frame is delivered with all its digits, nothing else is, and everything to be
rejected is counted, exactly when no frame of the stream is cut. -/
theorem no_digit_lost_iff (ops : List (Op UInt8)) :
    let fs := frames (ops.flatMap Op.input)
    let delivered := (Parser.runOps {} ops).1 ++ (Parser.runOps {} ops).2.completed
    (List.Forall₂ Frame.Spells (fs.filter fun frame => frame.Whole) delivered ∧
      (Parser.runOps {} ops).2.stats.framesError =
        UInt64.ofNat (fs.countP fun frame => frame.Rejected)) ↔
      ∀ frame ∈ fs, ¬ frame.Cut := by
  intro fs delivered
  obtain ⟨hdelivered, hstats⟩ := runOps_frames ops
  have herror := (foldl_count fs {}).2.2
  rw [← hstats, UInt64.zero_add] at herror
  constructor
  · rintro ⟨hspells, -⟩
    have hlength := hspells.length_eq
    rw [show delivered = fs.filterMap Frame.payload from hdelivered, delivered_length] at hlength
    have hnone : (fs.countP fun frame => frame.Cut) = 0 := by omega
    intro frame hframe
    simpa using List.countP_eq_zero.mp hnone frame hframe
  · intro hcut
    constructor
    · rw [show delivered = fs.filterMap Frame.payload from hdelivered]
      exact delivered_spells hcut (frames_digits _)
    · rw [herror, framesError_sum hcut]

/-- `[18 00 38 1]`: the last digit is dropped, and the rest is delivered without an error. -/
theorem last_digit_dropped :
    let line : List UInt8 := [0x5B, 0x31, 0x38, 0x20, 0x30, 0x30, 0x20, 0x33, 0x38, 0x20, 0x31, 0x5D]
    let frame : Frame := ⟨[0x31, 0x38, 0x30, 0x30, 0x33, 0x38, 0x31], .bracket⟩
    let p := ({} : Parser).feedData line
    frames line = [frame] ∧ p.completed = [[0x18, 0x00, 0x38]] ∧ p.stats.framesError = 0 ∧
      ¬ frame.Spells [0x18, 0x00, 0x38] := by
  intro line frame p
  refine ⟨?_, by decide, by decide, ?_⟩
  · rw [← run_outside]
    decide
  · unfold Frame.Spells
    decide

end SerialIpmi.Terminal
