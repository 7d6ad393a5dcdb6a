import SerialIpmi.Terminal.Parser
import Mathlib.Data.FinEnum

/-! Hex digits and the bytes they spell. On digits alone the decoding loop of
the parser neither skips nor stops early. -/
namespace SerialIpmi.Terminal

/-- The hex digits in the order of what they count. -/
def hexDigits : List Char :=
  ['0', '1', '2', '3', '4', '5', '6', '7', '8', '9', 'A', 'B', 'C', 'D', 'E', 'F']

/-- A letter counts the same in both cases. -/
def digitValue (c : UInt8) : Nat := hexDigits.idxOf (Char.ofNat c.toNat).toUpper

theorem isHexDigit_iff : ∀ c : UInt8, isHexDigit c = true ↔ digitValue c < 16 := by
  decide +kernel

theorem hexValue_toNat : ∀ c : UInt8, isHexDigit c = true → (hexValue c).toNat = digitValue c := by
  decide +kernel

theorem not_isHexDigit_space : isHexDigit space = false := by decide
theorem not_isHexDigit_open : isHexDigit openBracket = false := by decide

theorem hexDigit_isHexDigit_high :
    ∀ byte : UInt8, isHexDigit (Parser.hexDigit (byte >>> 4)) = true := by
  decide +kernel

theorem hexDigit_isHexDigit_low :
    ∀ byte : UInt8, isHexDigit (Parser.hexDigit (byte &&& 0x0F)) = true := by
  decide +kernel

def pairByte (hi lo : UInt8) : UInt8 :=
  UInt8.ofNat (16 * digitValue hi + digitValue lo)

/-- The bytes spelled by consecutive pairs of digits; a last odd digit spells nothing. -/
def pairBytes : List UInt8 → List UInt8
  | hi :: lo :: rest => pairByte hi lo :: pairBytes rest
  | _ => []

theorem pairBytes_length (digits : List UInt8) : (pairBytes digits).length = digits.length / 2 := by
  fun_induction pairBytes digits with
  | case1 hi lo rest ih =>
    simp only [List.length_cons, ih]
    omega
  | case2 digits h =>
    match digits, h with
    | [], _ => rfl
    | [_], _ => simp
    | hi :: lo :: rest, h => exact (h hi lo rest rfl).elim

theorem digitValue_hexDigit :
    ∀ nibble : UInt8, nibble < 16 → digitValue (Parser.hexDigit nibble) = nibble.toNat := by
  decide +kernel

theorem byte_nibbles : ∀ byte : UInt8, byte >>> 4 < 16 ∧ byte &&& 0x0F < 16 ∧
    UInt8.ofNat (16 * (byte >>> 4).toNat + (byte &&& 0x0F).toNat) = byte := by
  decide +kernel

theorem pairByte_hexByte (byte : UInt8) :
    pairByte (Parser.hexDigit (byte >>> 4)) (Parser.hexDigit (byte &&& 0x0F)) = byte := by
  obtain ⟨hhigh, hlow, hbyte⟩ := byte_nibbles byte
  unfold pairByte
  rw [digitValue_hexDigit _ hhigh, digitValue_hexDigit _ hlow, hbyte]

theorem pairBytes_hexBytes (payload : List UInt8) :
    pairBytes (payload.flatMap Parser.hexByte) = payload := by
  induction payload with
  | nil => rfl
  | cons byte payload ih =>
    simp only [List.flatMap_cons, Parser.hexByte, List.cons_append, List.nil_append, pairBytes,
      pairByte_hexByte]
    exact congrArg _ ih

theorem shift_or_nibbles {hi lo : UInt8} (hhi : hi.toNat < 16) (hlo : lo.toNat < 16) :
    (hi <<< 4) ||| lo = UInt8.ofNat (16 * hi.toNat + lo.toNat) := by
  apply UInt8.toNat_inj.mp
  rw [UInt8.toNat_or, UInt8.toNat_shiftLeft, UInt8.toNat_ofNat_of_lt' (by simp only [UInt8.size]; omega)]
  simp only [UInt8.reduceToNat, Nat.reduceMod, Nat.shiftLeft_eq]
  rw [Nat.mod_eq_of_lt (by omega), Nat.mul_comm]
  exact (Nat.two_pow_add_eq_or_of_lt (i := 4) hlo _).symm

theorem hexPairs_digits {digits : List UInt8} (h : ∀ c ∈ digits, isHexDigit c = true) :
    hexPairs digits = pairBytes digits := by
  fun_induction pairBytes digits with
  | case1 hi lo rest ih =>
    have hvalue : ∀ c ∈ hi :: lo :: rest, (hexValue c).toNat = digitValue c ∧
        (hexValue c).toNat < 16 := by
      intro c hc
      rw [hexValue_toNat c (h c hc)]
      exact ⟨rfl, (isHexDigit_iff c).mp (h c hc)⟩
    obtain ⟨hhi, hhiLt⟩ := hvalue hi (by simp)
    obtain ⟨hlo, hloLt⟩ := hvalue lo (by simp)
    have hvalid : ¬ (hexValue hi = 0xFF ∨ hexValue lo = 0xFF) := by
      rintro (heq | heq) <;> simp [heq] at hhiLt hloLt
    unfold hexPairs
    simp only [hvalid, if_false]
    rw [shift_or_nibbles hhiLt hloLt, hhi, hlo, ih fun c hc => h c (by simp [hc])]
    rfl
  | case2 digits hshort =>
    rw [hexPairs]
    exact hshort

theorem hexStringToBytes_digits {digits : List UInt8} (h : ∀ c ∈ digits, isHexDigit c = true) :
    hexStringToBytes digits = pairBytes digits := by
  have hkeep : ∀ c : UInt8, isHexDigit c = true →
      ¬ (c = space ∨ c = lineFeed ∨ c = carriageReturn ∨ c = tab) := by decide +kernel
  unfold hexStringToBytes
  rw [List.filter_eq_self.mpr, hexPairs_digits h]
  exact fun c hc => decide_eq_true (hkeep c (h c hc))

end SerialIpmi.Terminal
