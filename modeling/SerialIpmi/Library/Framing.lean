import SerialIpmi.Library.Decoding
import Mathlib.Data.List.DropRight

/-! Frames between reserved symbols, with an escape that makes the symbol after
it data. `frames` reads a whole stream at once; `step` reads it one symbol at a
time. `run_outside` states that they find the same frames. -/
namespace Framing

open Decoding

/-- Reserved symbols of a framing. `reserved` is what an encoder escapes. -/
structure Code (α : Type*) where
  start : α
  stop : α
  escape : α
  mask : α → α
  reserved : α → Bool
  mask_mask : ∀ a, mask (mask a) = a
  start_ne_stop : start ≠ stop
  start_ne_escape : start ≠ escape
  stop_ne_escape : stop ≠ escape
  reserved_start : reserved start = true
  reserved_stop : reserved stop = true
  reserved_escape : reserved escape = true

/-- One unit of a frame: a symbol for itself, or a symbol after an escape. -/
inductive Piece (α : Type*) where
  | plain (a : α)
  | escaped (a : α)
  deriving DecidableEq

variable {α : Type*} [DecidableEq α]

namespace Code

variable (c : Code α)

def value : Piece α → α
  | .plain a => a
  | .escaped a => c.mask a

def takePieces : List α → Option (List (Piece α) × List α)
  | [] => none
  | a :: rest =>
      if a = c.escape then
        match rest with
        | [] => none
        | x :: rest => (takePieces rest).map fun t => (.escaped x :: t.1, t.2)
      else if a = c.stop then some ([], rest)
      else (takePieces rest).map fun t => (.plain a :: t.1, t.2)

theorem takePieces_length {input rest : List α} {pieces : List (Piece α)}
    (h : c.takePieces input = some (pieces, rest)) : rest.length < input.length := by
  fun_induction takePieces c input generalizing pieces with
  | case1 => simp at h
  | case2 => simp at h
  | case3 x tail ih =>
    obtain ⟨⟨taken, left⟩, htaken, heq⟩ := Option.map_eq_some_iff.mp h
    obtain ⟨-, rfl⟩ := Prod.mk.inj heq
    have : left.length < tail.length := ih htaken
    simp only [List.length_cons]
    omega
  | case4 tail =>
    obtain ⟨-, rfl⟩ := Prod.mk.inj (Option.some.inj h)
    simp
  | case5 a tail _ _ ih =>
    obtain ⟨⟨taken, left⟩, htaken, heq⟩ := Option.map_eq_some_iff.mp h
    obtain ⟨-, rfl⟩ := Prod.mk.inj heq
    have : left.length < tail.length := ih htaken
    simp only [List.length_cons]
    omega

/-- A restart abandons what came before it: only the pieces after the last
start that is not escaped count. -/
def payload (pieces : List (Piece α)) : List α :=
  (pieces.rtakeWhile (· ≠ .plain c.start)).map c.value

/-- The payloads of the complete frames of a stream: skip to a start, read
pieces to a stop, keep those after the last start, and begin again. -/
def frames : List α → List (List α)
  | [] => []
  | a :: rest =>
      if a = c.start then
        match _h : c.takePieces rest with
        | none => []
        | some (pieces, rest') => c.payload pieces :: frames rest'
      else frames rest
termination_by input => input.length
decreasing_by
  · exact (c.takePieces_length _h).trans (Nat.lt_succ_self _)
  · exact Nat.lt_succ_self _

inductive Position (α : Type*) where
  | outside
  | inside (buffer : List α)
  | escaped (buffer : List α)

def step : Core (Position α) α (List α)
  | .outside, a => if a = c.start then (.inside [], []) else (.outside, [])
  | .inside buffer, a =>
      if a = c.escape then (.escaped buffer, [])
      else if a = c.stop then (.outside, [buffer])
      else if a = c.start then (.inside [], [])
      else (.inside (buffer ++ [a]), [])
  | .escaped buffer, a => (.inside (buffer ++ [c.mask a]), [])

theorem step_cases (position : Position α) (a : α) :
    (c.step position a).2 = [] ∨
      ∃ buffer, position = .inside buffer ∧ a = c.stop ∧ c.step position a = (.outside, [buffer]) := by
  cases position with
  | outside =>
    left
    simp only [step]
    split <;> rfl
  | escaped buffer => left; rfl
  | inside buffer =>
    by_cases hescape : a = c.escape
    · left; simp [step, hescape]
    by_cases hstop : a = c.stop
    · right
      subst hstop
      exact ⟨buffer, rfl, rfl, by simp [step, hescape]⟩
    · left
      simp only [step, hescape, hstop, if_false]
      split <;> rfl

def absorb (buffer : List α) (piece : Piece α) : List α :=
  if piece = .plain c.start then [] else buffer ++ [c.value piece]

theorem foldl_absorb (pieces : List (Piece α)) : pieces.foldl c.absorb [] = c.payload pieces := by
  induction pieces using List.reverseRecOn with
  | nil => rfl
  | append_singleton pieces last ih =>
    rw [List.foldl_concat, ih, payload, payload, List.rtakeWhile_concat, absorb]
    by_cases h : last = .plain c.start <;> simp [h]

theorem run_inside (input buffer : List α) :
    run c.step (.inside buffer) input =
      match c.takePieces input with
      | none => ((run c.step (.inside buffer) input).1, [])
      | some (pieces, rest) => ((run c.step .outside rest).1,
          pieces.foldl c.absorb buffer :: (run c.step .outside rest).2) := by
  fun_induction takePieces c input generalizing buffer with
  | case1 => rfl
  | case2 => simp [run_cons, step]
  | case3 x tail ih =>
    have hstep : run c.step (.inside buffer) (c.escape :: x :: tail) =
        run c.step (.inside (c.absorb buffer (.escaped x))) tail := by
      simp [run_cons, step, absorb, value]
    rw [hstep]
    have := ih (c.absorb buffer (.escaped x))
    cases h : c.takePieces tail with
    | none => simpa [h] using this
    | some t => simpa [h] using this
  | case4 tail hne => simp [run_cons, step, hne]
  | case5 a tail hescape hstop ih =>
    have hstep : run c.step (.inside buffer) (a :: tail) =
        run c.step (.inside (c.absorb buffer (.plain a))) tail := by
      by_cases hstart : a = c.start
      · subst hstart
        simp [run_cons, step, absorb, hescape, hstop]
      · simp [run_cons, step, absorb, value, hescape, hstop, hstart]
    rw [hstep]
    have := ih (c.absorb buffer (.plain a))
    cases h : c.takePieces tail with
    | none => simpa [h] using this
    | some t => simpa [h] using this

/-- One symbol at a time, a decoder between frames finds the frames of the stream. -/
theorem run_outside (input : List α) : (run c.step .outside input).2 = c.frames input := by
  fun_induction frames c input with
  | case1 => rfl
  | case2 rest h =>
    rw [run_cons]
    simp only [step, if_true, List.nil_append]
    rw [run_inside, h]
  | case3 rest pieces left h ih =>
    rw [run_cons]
    simp only [step, if_true, List.nil_append]
    rw [run_inside, h]
    simp only [foldl_absorb, ih]
  | case4 a rest h ih =>
    rw [run_cons]
    simpa [step, h] using ih

def stuff (a : α) : List α :=
  if c.reserved a then [c.escape, c.mask a] else [a]

def encode (payload : List α) : List α :=
  c.start :: (payload.flatMap c.stuff ++ [c.stop])

omit [DecidableEq α] in
theorem ne_of_not_reserved {a : α} (h : c.reserved a = false) :
    a ≠ c.escape ∧ a ≠ c.stop ∧ a ≠ c.start := by
  refine ⟨?_, ?_, ?_⟩ <;> rintro rfl
  · exact absurd c.reserved_escape (by simp [h])
  · exact absurd c.reserved_stop (by simp [h])
  · exact absurd c.reserved_start (by simp [h])

theorem run_stuff (a : α) (buffer rest : List α) :
    run c.step (.inside buffer) (c.stuff a ++ rest) =
      run c.step (.inside (buffer ++ [a])) rest := by
  unfold stuff
  cases h : c.reserved a with
  | true => simp [run_cons, step, c.mask_mask]
  | false =>
    obtain ⟨hescape, hstop, hstart⟩ := c.ne_of_not_reserved h
    simp [run_cons, step, hescape, hstop, hstart]

theorem run_stuffed (payload buffer rest : List α) :
    run c.step (.inside buffer) (payload.flatMap c.stuff ++ rest) =
      run c.step (.inside (buffer ++ payload)) rest := by
  induction payload generalizing buffer with
  | nil => simp
  | cons a payload ih =>
    rw [List.flatMap_cons, List.append_assoc, run_stuff, ih, List.append_assoc]
    rfl

/-- A start begins a frame wherever the decoder stands, except after an escape. -/
theorem run_start {position : Position α} (h : ∀ buffer, position ≠ .escaped buffer)
    (rest : List α) :
    run c.step position (c.start :: rest) = run c.step (.inside []) rest := by
  cases position with
  | outside => simp [run_cons, step]
  | inside buffer => simp [run_cons, step, c.start_ne_escape, c.start_ne_stop]
  | escaped buffer => exact absurd rfl (h buffer)

theorem run_encode_of {position : Position α} (h : ∀ buffer, position ≠ .escaped buffer)
    (payload rest : List α) :
    run c.step position (c.encode payload ++ rest) =
      ((run c.step .outside rest).1, payload :: (run c.step .outside rest).2) := by
  have hstop : run c.step (.inside payload) (c.stop :: rest) =
      ((run c.step .outside rest).1, payload :: (run c.step .outside rest).2) := by
    simp [run_cons, step, c.stop_ne_escape]
  unfold encode
  rw [List.cons_append, c.run_start h, List.append_assoc, run_stuffed, List.nil_append,
    List.singleton_append, hstop]

theorem run_encode (payload rest : List α) :
    run c.step .outside (c.encode payload ++ rest) =
      ((run c.step .outside rest).1, payload :: (run c.step .outside rest).2) := by
  apply c.run_encode_of
  simp

theorem run_encode_escaped (buffer payload : List α) :
    run c.step (.escaped buffer) (c.encode payload) =
      (.outside, [buffer ++ c.mask c.start :: payload]) := by
  have hstop : run c.step (.inside (buffer ++ c.mask c.start :: payload)) [c.stop] =
      (.outside, [buffer ++ c.mask c.start :: payload]) := by
    simp [run_cons, step, c.stop_ne_escape]
  unfold encode
  rw [run_cons]
  simp only [step, List.nil_append]
  rw [run_stuffed, List.append_assoc, List.singleton_append, hstop]

theorem run_noise {noise : List α} (h : c.start ∉ noise) (rest : List α) :
    run c.step .outside (noise ++ rest) = run c.step .outside rest := by
  induction noise with
  | nil => rfl
  | cons a noise ih =>
    have ha : a ≠ c.start := (List.ne_of_not_mem_cons h).symm
    rw [List.cons_append, run_cons]
    simp [step, ha, ih (List.not_mem_of_not_mem_cons h)]

def abort (payload : List α) : List α := c.start :: payload.flatMap c.stuff

theorem run_aborted {position : Position α} (h : ∀ buffer, position ≠ .escaped buffer)
    (aborted : List (List α)) (payload rest : List α) :
    run c.step position (aborted.flatMap c.abort ++ (c.encode payload ++ rest)) =
      ((run c.step .outside rest).1, payload :: (run c.step .outside rest).2) := by
  induction aborted generalizing position with
  | nil => exact c.run_encode_of h payload rest
  | cons frame aborted ih =>
    unfold abort
    rw [List.flatMap_cons, List.append_assoc, List.cons_append, c.run_start h, run_stuffed]
    apply ih
    simp

theorem run_encodes (payloads : List (List α)) :
    run c.step .outside (payloads.flatMap c.encode) = (.outside, payloads) := by
  induction payloads with
  | nil => rfl
  | cons payload payloads ih => rw [List.flatMap_cons, run_encode, ih]

def pieces : List α → Option (List (Piece α))
  | [] => some []
  | a :: rest =>
      if a = c.escape then
        match rest with
        | [] => none
        | x :: rest => (pieces rest).map fun units => .escaped x :: units
      else (pieces rest).map fun units => .plain a :: units

theorem pieces_plain {a : α} (h : a ≠ c.escape) (rest : List α) :
    c.pieces (a :: rest) = (c.pieces rest).map fun units => .plain a :: units := by
  cases rest <;> simp [pieces, h]

def symbols : Piece α → List α
  | .plain a => [a]
  | .escaped a => [c.escape, a]

def piece (a : α) : Piece α :=
  if c.reserved a then .escaped (c.mask a) else .plain a

def canonical : Piece α → Bool
  | .plain a => !c.reserved a
  | .escaped a => c.reserved (c.mask a)

omit [DecidableEq α] in
theorem symbols_piece (a : α) : c.symbols (c.piece a) = c.stuff a := by
  unfold piece stuff
  cases c.reserved a <;> rfl

omit [DecidableEq α] in
theorem piece_value_iff (unit : Piece α) : c.piece (c.value unit) = unit ↔ c.canonical unit := by
  cases unit with
  | plain a =>
    unfold piece value canonical
    cases h : c.reserved a <;> simp [h]
  | escaped a =>
    unfold piece value canonical
    rw [c.mask_mask]
    cases h : c.reserved (c.mask a) <;> simp [h]

theorem symbols_pieces {stretch : List α} {units : List (Piece α)}
    (h : c.pieces stretch = some units) : units.flatMap c.symbols = stretch := by
  fun_induction pieces c stretch generalizing units with
  | case1 =>
    rw [← Option.some.inj h]
    rfl
  | case2 => simp at h
  | case3 x rest ih =>
    obtain ⟨tail, htail, rfl⟩ := Option.map_eq_some_iff.mp h
    rw [List.flatMap_cons, ih htail]
    rfl
  | case4 a rest hescape ih =>
    obtain ⟨tail, htail, rfl⟩ := Option.map_eq_some_iff.mp h
    rw [List.flatMap_cons, ih htail]
    rfl

theorem escape_notMem_pieces {stretch : List α} {units : List (Piece α)}
    (h : c.pieces stretch = some units) : .plain c.escape ∉ units := by
  fun_induction pieces c stretch generalizing units with
  | case1 =>
    rw [← Option.some.inj h]
    exact List.not_mem_nil
  | case2 => simp at h
  | case3 x rest ih =>
    obtain ⟨tail, htail, rfl⟩ := Option.map_eq_some_iff.mp h
    simp [ih htail]
  | case4 a rest hescape ih =>
    obtain ⟨tail, htail, rfl⟩ := Option.map_eq_some_iff.mp h
    simp [ih htail, Ne.symm hescape]

theorem pieces_stuffed (payload : List α) :
    c.pieces (payload.flatMap c.stuff) = some (payload.map c.piece) := by
  induction payload with
  | nil => rfl
  | cons a payload ih =>
    rw [List.flatMap_cons, List.map_cons]
    cases h : c.reserved a with
    | true =>
      have hstuff : c.stuff a = [c.escape, c.mask a] := if_pos h
      have hpiece : c.piece a = .escaped (c.mask a) := if_pos h
      simp [hstuff, hpiece, pieces, ih]
    | false =>
      have hescape : a ≠ c.escape := (c.ne_of_not_reserved h).1
      have hstuff : c.stuff a = [a] := if_neg (by simp [h])
      have hpiece : c.piece a = .plain a := if_neg (by simp [h])
      rw [hstuff, hpiece, List.singleton_append, c.pieces_plain hescape, ih]
      rfl

/-- Encoding undoes decoding exactly on stretches of canonical pieces. -/
theorem stuffed_values_iff {stretch : List α} {units : List (Piece α)}
    (h : c.pieces stretch = some units) :
    (units.map c.value).flatMap c.stuff = stretch ↔ ∀ unit ∈ units, c.canonical unit := by
  constructor
  · intro hstretch
    have hunits := c.pieces_stuffed (units.map c.value)
    rw [hstretch, h, List.map_map] at hunits
    have hsame : units.map (c.piece ∘ c.value) = units.map id := by
      rw [List.map_id]
      exact (Option.some.inj hunits).symm
    intro unit hunit
    exact (c.piece_value_iff unit).mp (List.map_inj_left.mp hsame unit hunit)
  · intro hcanonical
    have hwrite : ∀ unit ∈ units, c.stuff (c.value unit) = c.symbols unit := by
      intro unit hunit
      rw [← symbols_piece, (c.piece_value_iff unit).mpr (hcanonical unit hunit)]
    rw [List.flatMap_map, ← c.symbols_pieces h]
    exact List.flatMap_congr hwrite

/-- Inside a frame a stretch without a start or a stop of its own is read to its end. -/
theorem run_pieces {stretch : List α} {units : List (Piece α)} (h : c.pieces stretch = some units)
    (hstart : .plain c.start ∉ units) (hstop : .plain c.stop ∉ units) (buffer rest : List α) :
    run c.step (.inside buffer) (stretch ++ rest) =
      run c.step (.inside (buffer ++ units.map c.value)) rest := by
  fun_induction pieces c stretch generalizing units buffer with
  | case1 =>
    rw [← Option.some.inj h]
    simp
  | case2 => simp at h
  | case3 x tail ih =>
    obtain ⟨units, hunits, rfl⟩ := Option.map_eq_some_iff.mp h
    rw [List.mem_cons, not_or] at hstart hstop
    have hrest := ih hunits hstart.2 hstop.2 (buffer ++ [c.mask x])
    simpa [run_cons, step, value] using hrest
  | case4 a tail hescape ih =>
    obtain ⟨units, hunits, rfl⟩ := Option.map_eq_some_iff.mp h
    rw [List.mem_cons, not_or] at hstart hstop
    have ha : a ≠ c.start ∧ a ≠ c.stop := by
      refine ⟨?_, ?_⟩ <;> rintro rfl
      · exact hstart.1 rfl
      · exact hstop.1 rfl
    have hrest := ih hunits hstart.2 hstop.2 (buffer ++ [a])
    simpa [run_cons, step, value, hescape, ha] using hrest

theorem encode_injective : Function.Injective c.encode := by
  intro left right h
  have hleft := c.run_encode left []
  rw [h, c.run_encode right []] at hleft
  exact (List.cons.inj (Prod.mk.inj hleft).2).1.symm

end Code

end Framing
