import SerialIpmi.Library.Decoding
import SerialIpmi.Terminal.Hex

/-! The grammar of Terminal-mode streams: what a frame is, which frames deliver
a payload, and a decoder that takes one byte at a time. -/
namespace SerialIpmi.Terminal

open Decoding

inductive Ending where
  | bracket
  | newline
  | overflow
  | illegal
  deriving DecidableEq, Repr

/-- A frame as the line carries it: its digits, without spaces, and its end. -/
structure Frame where
  digits : List UInt8
  ending : Ending
  deriving DecidableEq, Repr

def endingOf (ch : UInt8) : Ending :=
  if ch = closeBracket then .bracket
  else if ch = carriageReturn ∨ ch = lineFeed then .newline
  else .illegal

/-- A rejected frame also costs the byte that follows it. -/
def Ending.discards : Ending → Bool
  | .bracket => false
  | .newline => false
  | .overflow => true
  | .illegal => true

def Ending.resume (ending : Ending) (rest : List UInt8) : List UInt8 :=
  if ending.discards then rest.drop 1 else rest

theorem Ending.resume_length (ending : Ending) (rest : List UInt8) :
    (ending.resume rest).length ≤ rest.length := by
  unfold resume
  split <;> simp

def takeFrame : Nat → List UInt8 → Option (Frame × List UInt8)
  | _, [] => none
  | limit, ch :: rest =>
      if ch = space then takeFrame limit rest
      else if isHexDigit ch then
        match limit with
        | 0 => some (⟨[], .overflow⟩, rest)
        | limit + 1 => (takeFrame limit rest).map fun t =>
            (⟨ch :: t.1.digits, t.1.ending⟩, t.2)
      else some (⟨[], endingOf ch⟩, rest)

theorem takeFrame_length {limit : Nat} {input rest : List UInt8} {frame : Frame}
    (h : takeFrame limit input = some (frame, rest)) : rest.length < input.length := by
  fun_induction takeFrame limit input generalizing frame with
  | case1 => simp at h
  | case2 limit tail ih =>
    have := ih h
    simp only [List.length_cons]
    omega
  | case3 ch tail =>
    obtain ⟨-, rfl⟩ := Prod.mk.inj (Option.some.inj h)
    simp
  | case4 ch tail _ _ limit ih =>
    obtain ⟨⟨taken, left⟩, htaken, heq⟩ := Option.map_eq_some_iff.mp h
    obtain ⟨-, rfl⟩ := Prod.mk.inj heq
    have : left.length < tail.length := ih htaken
    simp only [List.length_cons]
    omega
  | case5 limit ch tail =>
    obtain ⟨-, rfl⟩ := Prod.mk.inj (Option.some.inj h)
    simp

/-- The ended frames of a stream: skip to an opening bracket, take a frame, and begin again. -/
def frames : List UInt8 → List Frame
  | [] => []
  | ch :: rest =>
      if ch = openBracket then
        match _h : takeFrame 160 rest with
        | none => []
        | some (frame, rest') =>
            frame :: frames (frame.ending.resume rest')
      else frames rest
termination_by input => input.length
decreasing_by
  · have hlength := takeFrame_length _h
    have hresume := frame.ending.resume_length rest'
    simp only [List.length_cons]
    omega
  · exact Nat.lt_succ_self _

namespace Frame

def payload (frame : Frame) : Option (List UInt8) :=
  if ¬ frame.ending.discards ∧ 2 ≤ frame.digits.length then some (pairBytes frame.digits) else none

def framesReceived (frame : Frame) : Nat :=
  if ¬ frame.ending.discards ∧ 2 ≤ frame.digits.length then 1 else 0

def bytesReceived (frame : Frame) : Nat :=
  if ¬ frame.ending.discards ∧ 2 ≤ frame.digits.length then frame.digits.length / 2 else 0

/-- A rejection counts as one error; so does a frame of less than two digits,
except an empty one ended by a line break. -/
def framesError (frame : Frame) : Nat :=
  match frame.ending with
  | .overflow => 1
  | .illegal => 1
  | .bracket => if frame.digits.length < 2 then 1 else 0
  | .newline => if frame.digits.length = 1 then 1 else 0

end Frame

inductive Position where
  | outside
  | inside (digits : List UInt8)
  | skip
  deriving DecidableEq, Repr

def Ending.next (ending : Ending) : Position :=
  if ending.discards then .skip else .outside

def step : Core Position UInt8 Frame
  | .outside, ch => if ch = openBracket then (.inside [], []) else (.outside, [])
  | .inside digits, ch =>
      if ch = space then (.inside digits, [])
      else if isHexDigit ch then
        if digits.length = 160 then (.skip, [⟨digits, .overflow⟩])
        else (.inside (digits ++ [ch]), [])
      else ((endingOf ch).next, [⟨digits, endingOf ch⟩])
  | .skip, _ => (.outside, [])

theorem step_cases (position : Position) (ch : UInt8) :
    (step position ch).2 = [] ∨ ∃ frame, (step position ch).2 = [frame] ∧ position ≠ .outside ∧
      (frame.ending.discards = false → (step position ch).1 = .outside ∧ ch ≠ openBracket) := by
  cases position with
  | outside => left; simp only [step]; split <;> rfl
  | skip => left; rfl
  | inside digits =>
    by_cases hspace : ch = space
    · left; simp [step, hspace]
    cases hdigit : isHexDigit ch with
    | true =>
      by_cases hfull : digits.length = 160
      · right
        exact ⟨⟨digits, .overflow⟩, by simp [step, hspace, hdigit, hfull], by simp,
          fun h => by simp [Ending.discards] at h⟩
      · left; simp [step, hspace, hdigit, hfull]
    | false =>
      right
      refine ⟨⟨digits, endingOf ch⟩, by simp [step, hspace, hdigit], by simp, fun h => ⟨?_, ?_⟩⟩
      · simp only at h
        simp [step, hspace, hdigit, Ending.next, h]
      · rintro rfl
        exact absurd (show (endingOf openBracket).discards = false from h) (by decide)

theorem run_inside (input digits : List UInt8) (limit : Nat) (hlimit : digits.length + limit = 160) :
    run step (.inside digits) input =
      match takeFrame limit input with
      | none => ((run step (.inside digits) input).1, [])
      | some (frame, rest) => ((run step frame.ending.next rest).1,
          ⟨digits ++ frame.digits, frame.ending⟩ :: (run step frame.ending.next rest).2) := by
  fun_induction takeFrame limit input generalizing digits with
  | case1 => rfl
  | case2 limit tail ih =>
    have hstep : run step (.inside digits) (space :: tail) = run step (.inside digits) tail := by
      simp [run_cons, step]
    rw [hstep]
    exact ih digits hlimit
  | case3 ch tail hspace hdigit =>
    simp [run_cons, step, hspace, hdigit, Ending.next, Ending.discards, show digits.length = 160 from hlimit]
  | case4 ch tail hspace hdigit limit ih =>
    have hstep : run step (.inside digits) (ch :: tail) = run step (.inside (digits ++ [ch])) tail := by
      simp [run_cons, step, hspace, hdigit, show digits.length ≠ 160 by omega]
    rw [hstep]
    have := ih (digits ++ [ch]) (by simp only [List.length_append, List.length_singleton]; omega)
    cases h : takeFrame limit tail with
    | none => simpa [h] using this
    | some t => simpa [h] using this
  | case5 limit ch tail hspace hdigit => simp [run_cons, step, hspace, hdigit]

theorem run_next (ending : Ending) (rest : List UInt8) :
    (run step ending.next rest).2 =
      (run step .outside (ending.resume rest)).2 := by
  unfold Ending.next Ending.resume
  cases hdiscards : ending.discards with
  | false => rfl
  | true => cases rest <;> rfl

/-- One byte at a time, a decoder between frames finds the frames of the stream. -/
theorem run_outside (input : List UInt8) : (run step .outside input).2 = frames input := by
  fun_induction frames input with
  | case1 => rfl
  | case2 rest h =>
    rw [run_cons]
    simp only [step, if_true, List.nil_append]
    rw [run_inside rest [] 160 rfl, h]
  | case3 rest frame left h ih =>
    rw [run_cons]
    simp only [step, if_true, List.nil_append]
    rw [run_inside rest [] 160 rfl, h]
    simp only [run_next, ih, List.nil_append]
  | case4 ch rest h ih =>
    rw [run_cons]
    simpa [step, h] using ih

end SerialIpmi.Terminal
