import SerialIpmi.Library.ByteSum

/-! The two checksums of a Basic-mode frame. -/
namespace SerialIpmi.Basic

open ByteSum

def checksum (bytes : List UInt8) : UInt8 :=
  let sum := bytes.foldl (fun sum b => sum + b.toUInt32) (0 : UInt32)
  ((~~~sum + 1) &&& 0xFF).toUInt8

theorem byteSum_checksum (bytes : List UInt8) :
    (byteSum bytes + (checksum bytes).toNat) % 256 = 0 := by
  have hsum := foldl_uint32 bytes 0
  have hcomplement := complement_toNat
    (bytes.foldl (fun sum b => sum + b.toUInt32) (0 : UInt32))
  have hmask : ∀ word : UInt32, (word &&& 0xFF).toUInt8 = word.toUInt8 := by
    intro word
    apply UInt8.toNat_inj.mp
    rw [UInt32.toNat_toUInt8, UInt32.toNat_toUInt8, UInt32.toNat_and]
    simp only [UInt32.reduceToNat]
    rw [Nat.and_two_pow_sub_one_eq_mod word.toNat 8]
    omega
  unfold checksum
  rw [hmask]
  rw [UInt32.toNat_zero] at hsum
  omega

theorem checksum_unique {bytes : List UInt8} {c : UInt8}
    (h : (byteSum bytes + c.toNat) % 256 = 0) : c = checksum bytes :=
  complement_unique h (byteSum_checksum bytes)

def validateChecksum (m : List UInt8) : Bool :=
  if h : m.length < 7 then false
  else
    let rsSA := m[0]
    let netfnRslun := m[1]
    let csum1 := m[2]
    let rqSA := m[3]
    let rqSeqRqlun := m[4]
    let cmd := m[5]
    let sum1 := rsSA.toUInt16 + netfnRslun.toUInt16 + csum1.toUInt16
    if sum1 &&& 0xFF ≠ 0 then false
    else
      let sum2 := ((m.drop 6).dropLast).foldl (fun sum b => sum + b.toUInt16)
        (rqSA.toUInt16 + rqSeqRqlun.toUInt16 + cmd.toUInt16)
      let csum2 := m[m.length - 1]
      -- the last addition is an `int` addition in the source and cannot wrap
      (sum2.toNat + csum2.toNat) &&& 0xFF == 0

theorem exists_of_seven_le {m : List UInt8} (h : 7 ≤ m.length) :
    ∃ a b c d e f g rest, m = a :: b :: c :: d :: e :: f :: g :: rest := by
  match m, h with
  | a :: b :: c :: d :: e :: f :: g :: rest, _ => exact ⟨a, b, c, d, e, f, g, rest, rfl⟩

theorem nat_low_byte (n : Nat) : n &&& 0xFF = n % 256 :=
  Nat.and_two_pow_sub_one_eq_mod n 8

theorem uint16_low_byte_eq_zero (sum : UInt16) : sum &&& 0xFF = 0 ↔ sum.toNat % 256 = 0 := by
  rw [← UInt16.toNat_inj, UInt16.toNat_and]
  exact Eq.congr (nat_low_byte sum.toNat) rfl

theorem byteSum_dropLast (bytes : List UInt8) (h : bytes ≠ []) :
    byteSum bytes = byteSum bytes.dropLast + (bytes.getLast h).toNat := by
  conv_lhs => rw [← List.dropLast_append_getLast h]
  simp

theorem validateChecksum_iff (m : List UInt8) : validateChecksum m = true ↔
    7 ≤ m.length ∧ byteSum (m.take 3) % 256 = 0 ∧ byteSum (m.drop 3) % 256 = 0 := by
  by_cases hlen : m.length < 7
  · have : ¬ 7 ≤ m.length := by omega
    simp [validateChecksum, hlen, this]
  obtain ⟨a, b, c, d, e, f, g, rest, rfl⟩ := exists_of_seven_le (Nat.le_of_not_lt hlen)
  have hlast : (a :: b :: c :: d :: e :: f :: g :: rest)[
      (a :: b :: c :: d :: e :: f :: g :: rest).length - 1] = (g :: rest).getLast (by simp) := by
    rw [List.getLast_eq_getElem]
    rfl
  have hbody := byteSum_dropLast (g :: rest) (by simp)
  have hsum2 := foldl_uint16 (g :: rest).dropLast (d.toUInt16 + e.toUInt16 + f.toUInt16)
  have hsum1 : (a.toUInt16 + b.toUInt16 + c.toUInt16).toNat % 256 =
      (a.toNat + (b.toNat + c.toNat)) % 256 := by
    simp only [UInt16.toNat_add, UInt8.toNat_toUInt16]
    omega
  have hstart : (d.toUInt16 + e.toUInt16 + f.toUInt16).toNat % 256 =
      (d.toNat + e.toNat + f.toNat) % 256 := by
    simp only [UInt16.toNat_add, UInt8.toNat_toUInt16]
    omega
  have hheader : byteSum [a, b, c] = a.toNat + (b.toNat + c.toNat) := by simp
  have hrest : byteSum (d :: e :: f :: g :: rest) =
      d.toNat + (e.toNat + (f.toNat + byteSum (g :: rest))) := rfl
  simp only [validateChecksum, hlen, ↓reduceDIte, List.getElem_cons_zero, List.getElem_cons_succ,
    hlast, List.drop_succ_cons, List.drop_zero, List.take_succ_cons, List.take_zero, hheader,
    hrest]
  by_cases hfirst : a.toUInt16 + b.toUInt16 + c.toUInt16 &&& 0xFF = 0
  · rw [if_neg (not_not.mpr hfirst), beq_iff_eq, nat_low_byte]
    rw [uint16_low_byte_eq_zero] at hfirst
    omega
  · rw [if_pos hfirst]
    rw [uint16_low_byte_eq_zero] at hfirst
    simp only [Bool.false_eq_true, false_iff]
    omega

theorem validateChecksum_length {m : List UInt8} (h : validateChecksum m = true) :
    7 ≤ m.length :=
  ((validateChecksum_iff m).mp h).1

theorem checksum_iff (bytes : List UInt8) (c : UInt8) :
    (byteSum bytes + c.toNat) % 256 = 0 ↔ c = checksum bytes := by
  constructor
  · exact checksum_unique
  · intro h
    rw [h]
    exact byteSum_checksum bytes

/-- A frame is accepted exactly when its third byte is the checksum of the two before it and
its last byte the checksum of the body; and a checksum is the only byte that completes its
sum, whatever the widths of the accumulators. -/
theorem checksums_agree (m bytes : List UInt8) (c : UInt8) :
    (validateChecksum m = true ↔ ∃ h : 7 ≤ m.length,
      m[2] = checksum [m[0], m[1]] ∧ m[m.length - 1] = checksum (m.drop 3).dropLast) ∧
    ((byteSum bytes + c.toNat) % 256 = 0 ↔ c = checksum bytes) := by
  refine ⟨?_, checksum_iff bytes c⟩
  rw [validateChecksum_iff, ← exists_prop]
  apply exists_congr
  intro h
  have hheader : byteSum (m.take 3) = byteSum [m[0], m[1]] + m[2].toNat := by
    obtain ⟨a, b, c, d, e, f, g, rest, rfl⟩ := exists_of_seven_le h
    simp [Nat.add_assoc]
  have hne : m.drop 3 ≠ [] := by
    rw [List.ne_nil_iff_length_pos, List.length_drop]
    omega
  have hlast : (m.drop 3).getLast hne = m[m.length - 1] := by
    rw [List.getLast_drop, List.getLast_eq_getElem]
  have hbody := byteSum_dropLast (m.drop 3) hne
  rw [hlast] at hbody
  rw [hheader, hbody, checksum_iff, checksum_iff]

theorem validateChecksum_set {m : List UInt8} {i : Nat} {b : UInt8}
    (hvalid : validateChecksum m = true) (hi : i < m.length) (hb : b ≠ m[i]) :
    validateChecksum (m.set i b) = false := by
  obtain ⟨hlength, hheader, hbody⟩ := (validateChecksum_iff m).mp hvalid
  rw [← Bool.not_eq_true, validateChecksum_iff, List.take_set, List.drop_set]
  rintro ⟨-, hheader', hbody'⟩
  -- each position is in one of the two sums
  by_cases hfirst : i < 3
  · have htake : i < (m.take 3).length := by
      rw [List.length_take]
      omega
    apply byteSum_set_ne htake hheader ?_ hheader'
    rw [List.getElem_take]
    exact hb
  · have hdrop : i - 3 < (m.drop 3).length := by
      rw [List.length_drop]
      omega
    rw [if_neg hfirst] at hbody'
    apply byteSum_set_ne hdrop hbody ?_ hbody'
    have hsame : 3 + (i - 3) = i := by omega
    simpa only [List.getElem_drop, hsame] using hb

end SerialIpmi.Basic
