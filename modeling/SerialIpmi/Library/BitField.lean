import Mathlib.Data.List.Basic

/-! Two fields in one byte: six bits above two bits. -/
namespace BitField

theorem pack_toNat (high low : UInt8) :
    ((high <<< 2) ||| (low &&& 0x03)).toNat = 4 * (high.toNat % 64) + low.toNat % 4 := by
  have hlow : low.toNat &&& 3 = low.toNat % 4 := Nat.and_two_pow_sub_one_eq_mod low.toNat 2
  have hhigh : high.toNat <<< 2 % 256 = 2 ^ 2 * (high.toNat % 64) := by
    rw [Nat.shiftLeft_eq]
    omega
  rw [UInt8.toNat_or, UInt8.toNat_shiftLeft, UInt8.toNat_and]
  simp only [UInt8.reduceToNat, Nat.reduceMod, Nat.reducePow] at *
  rw [hlow, hhigh]
  exact (Nat.two_pow_add_eq_or_of_lt (i := 2) (Nat.mod_lt _ (by decide)) _).symm

theorem high_toNat (byte : UInt8) : (byte >>> 2).toNat = byte.toNat / 4 := by
  simp [UInt8.toNat_shiftRight, Nat.shiftRight_eq_div_pow]

theorem low_toNat (byte : UInt8) : (byte &&& 0x03).toNat = byte.toNat % 4 := by
  rw [UInt8.toNat_and]
  exact Nat.and_two_pow_sub_one_eq_mod byte.toNat 2

theorem high_pack (high low : UInt8) :
    ((high <<< 2) ||| (low &&& 0x03)) >>> 2 = high % 64 := by
  apply UInt8.toNat_inj.mp
  rw [high_toNat, pack_toNat, UInt8.toNat_mod]
  simp only [UInt8.reduceToNat]
  omega

theorem low_pack (high low : UInt8) :
    ((high <<< 2) ||| (low &&& 0x03)) &&& 0x03 = low % 4 := by
  apply UInt8.toNat_inj.mp
  rw [low_toNat, pack_toNat, UInt8.toNat_mod]
  simp only [UInt8.reduceToNat]
  omega

theorem pack_eq_iff (high high' low : UInt8) :
    ((high <<< 2) ||| (low &&& 3 : UInt8)) = ((high' <<< 2) ||| (low &&& 3 : UInt8)) ↔
      high % 64 = high' % 64 := by
  constructor
  · intro h
    rw [← high_pack high low, h, high_pack]
  · intro h
    have hnat := congrArg UInt8.toNat h
    rw [UInt8.toNat_mod, UInt8.toNat_mod] at hnat
    simp only [UInt8.reduceToNat] at hnat
    apply UInt8.toNat_inj.mp
    rw [pack_toNat, pack_toNat, hnat]

end BitField
