import Mathlib.Algebra.GroupWithZero.Nat
import Mathlib.Data.List.Basic

/-! Sums of bytes modulo 256, whatever the width of the accumulator, and the
two's complement byte that brings such a sum to zero. -/
namespace ByteSum

def byteSum (bytes : List UInt8) : Nat :=
  (bytes.map UInt8.toNat).sum

@[simp] theorem byteSum_nil : byteSum [] = 0 := rfl

@[simp] theorem byteSum_cons (b : UInt8) (bytes : List UInt8) :
    byteSum (b :: bytes) = b.toNat + byteSum bytes := rfl

@[simp] theorem byteSum_append (left right : List UInt8) :
    byteSum (left ++ right) = byteSum left + byteSum right := by
  simp [byteSum]

theorem byteSum_set (bytes : List UInt8) {i : Nat} (h : i < bytes.length) (b : UInt8) :
    byteSum (bytes.set i b) + bytes[i].toNat = byteSum bytes + b.toNat := by
  induction bytes generalizing i with
  | nil => exact absurd h (Nat.not_lt_zero i)
  | cons first bytes ih =>
    cases i with
    | zero =>
      simp only [List.set_cons_zero, List.getElem_cons_zero, byteSum_cons]
      omega
    | succ i =>
      have hrest := ih (Nat.lt_of_succ_lt_succ h)
      simp only [List.set_cons_succ, List.getElem_cons_succ, byteSum_cons]
      omega

theorem byteSum_set_ne {bytes : List UInt8} {i : Nat} {b : UInt8} (h : i < bytes.length)
    (hsum : byteSum bytes % 256 = 0) (hb : b ≠ bytes[i]) : byteSum (bytes.set i b) % 256 ≠ 0 := by
  intro hset
  have hchange := byteSum_set bytes h b
  have hold := bytes[i].toNat_lt
  have hnew := b.toNat_lt
  apply hb
  apply UInt8.toNat_inj.mp
  omega

theorem foldl_uint16 (bytes : List UInt8) (sum : UInt16) :
    (bytes.foldl (fun sum b => sum + b.toUInt16) sum).toNat % 256 =
      (sum.toNat + byteSum bytes) % 256 := by
  induction bytes generalizing sum with
  | nil => simp
  | cons b bytes ih =>
    rw [List.foldl_cons, ih, byteSum_cons, UInt16.toNat_add, UInt8.toNat_toUInt16]
    omega

theorem foldl_uint32 (bytes : List UInt8) (sum : UInt32) :
    (bytes.foldl (fun sum b => sum + b.toUInt32) sum).toNat % 256 =
      (sum.toNat + byteSum bytes) % 256 := by
  induction bytes generalizing sum with
  | nil => simp
  | cons b bytes ih =>
    rw [List.foldl_cons, ih, byteSum_cons, UInt32.toNat_add, UInt8.toNat_toUInt32]
    omega

theorem complement_toNat (sum : UInt32) :
    (sum.toNat + ((~~~sum + 1).toUInt8).toNat) % 256 = 0 := by
  have hneg : (~~~sum + 1).toNat = (4294967296 - sum.toNat) % 4294967296 := by
    rw [← UInt32.neg_eq_not_add, UInt32.toNat_neg]
  rw [UInt32.toNat_toUInt8, hneg]
  have := sum.toNat_lt
  omega

theorem complement_unique {sum : Nat} {a b : UInt8} (ha : (sum + a.toNat) % 256 = 0)
    (hb : (sum + b.toNat) % 256 = 0) : a = b := by
  have := a.toNat_lt
  have := b.toNat_lt
  apply UInt8.toNat_inj.mp
  omega

end ByteSum
