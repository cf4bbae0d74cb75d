import DeviceAttest.Proofs.Der.Integer
import Mathlib.Algebra.Group.Int.Defs

/-!
# Integers are read in two's complement

One to eight octets are read as the number that they are in two's complement, and no other number
of octets is read (`read?_eq_some_iff`).
-/

namespace DeviceAttest

/-! ### Big-endian numbers -/

namespace Bytes

theorem bigEndian_cons (b : UInt8) (s : Bytes) :
    bigEndian (b :: s) = b.toNat * 256 ^ s.length + bigEndian s := by
  rw [bigEndian, bigEndianFrom, Nat.zero_mul, Nat.zero_add, Der.Integer.bigEndianFrom_eq]

/-- Some octets are below the power of their number. -/
theorem bigEndian_lt (s : Bytes) : bigEndian s < 256 ^ s.length := by
  induction s with
  | nil => exact Nat.one_pos
  | cons b s ih =>
    have hb := Nat.mul_le_mul_right (256 ^ s.length) (Nat.le_of_lt_succ b.toNat_lt)
    rw [bigEndian_cons, List.length_cons, Nat.pow_succ]
    omega

/-- Four octets or fewer have a value of 32 bits. -/
theorem bigEndian_lt_of_length_le_four {s : Bytes} (h : s.length ≤ 4) : bigEndian s < 2 ^ 32 :=
  Nat.lt_of_lt_of_le (bigEndian_lt s) (Nat.pow_le_pow_right (n := 256) (by decide) h)

end Bytes

namespace Der.Integer

/-! ### Two's complement -/

/-- The two's complement value of a byte string, most significant octet first. -/
def signed : Bytes → Int
  | []     => 0
  | b :: s =>
    if b < 128 then Bytes.bigEndian (b :: s)
    else Bytes.bigEndian (b :: s) - 256 ^ (s.length + 1)

/-- A number of 64 bits is negative from 2^63 on. -/
theorem toInt_eq (n : Int64) :
    n.toInt = if n.toUInt64.toNat < 2 ^ 63 then (n.toUInt64.toNat : Int)
      else n.toUInt64.toNat - 2 ^ 64 := by
  have hcond : 2 * n.toBitVec.toNat < 2 ^ 64 ↔ n.toUInt64.toNat < 2 ^ 63 := by
    show 2 * n.toUInt64.toNat < 2 ^ 64 ↔ _
    omega
  rw [Int64.toInt, BitVec.toInt_eq_toNat_cond]
  simp only [hcond]
  rfl

/-- Up to eight octets accumulate to their two's complement value. -/
theorem toInt_accumulate {b : UInt8} {s : Bytes} (h : s.length < 8) :
    (accumulate (signFill (b :: s)) (b :: s)).toInt = signed (b :: s) := by
  have hnat := toNat_accumulate (signFill (b :: s)) (b :: s)
  have hsplit := Bytes.bigEndian_cons b s
  have htail := Bytes.bigEndian_lt s
  -- the weight of the first octet is at most 2^56
  have hweight : 256 ^ s.length ≤ 256 ^ 7 := Nat.pow_le_pow_right (by decide) (by omega)
  rw [bigEndianFrom_eq, List.length_cons, Nat.pow_succ] at hnat
  rw [toInt_eq]
  by_cases hb : b < 128
  · have hfill : (signFill (b :: s)).toUInt64.toNat = 0 := by
      rw [signFill, if_pos hb]
      rfl
    have hlt : b.toNat < 128 := UInt8.lt_iff_toNat_lt.mp hb
    have hfirst := Nat.mul_le_mul_right (256 ^ s.length) (Nat.le_of_lt_succ hlt)
    rw [hfill] at hnat
    rw [signed, if_pos hb, if_pos (by omega)]
    omega
  · have hfill : (signFill (b :: s)).toUInt64.toNat = 2 ^ 64 - 1 := by
      rw [signFill, if_neg hb]
      rfl
    have hge : 128 ≤ b.toNat := UInt8.le_iff_toNat_le.mp (UInt8.not_lt.mp hb)
    have hfirst := Nat.mul_le_mul_right (256 ^ s.length) hge
    have hlast := Nat.mul_le_mul_right (256 ^ s.length) (Nat.le_of_lt_succ b.toNat_lt)
    have hpow : (256 : Int) ^ (s.length + 1) = ((256 ^ s.length : Nat) : Int) * 256 := by
      rw [Int.pow_succ, Int.natCast_pow]
      rfl
    rw [hfill] at hnat
    rw [signed, if_neg hb, hpow, if_neg (by omega)]
    omega

/-- **Octets are read as what they are in two's complement**, if there are one to eight of them. -/
theorem read?_eq_some_iff {s : Bytes} {n : Int64} :
    read? s = some n ↔ (1 ≤ s.length ∧ s.length ≤ 8) ∧ n.toInt = signed s := by
  unfold read?
  cases s with
  | nil => simp
  | cons b s =>
    by_cases h : 8 < (b :: s).length
    · rw [if_pos (.inr h)]
      constructor
      · intro hnone
        cases hnone
      · rintro ⟨⟨-, hle⟩, -⟩
        omega
    · have hok : ¬ ((b :: s).length = 0 ∨ 8 < (b :: s).length) := by
        rw [List.length_cons] at h ⊢
        omega
      have hvalue : (accumulate (signFill (b :: s)) (b :: s)).toInt = signed (b :: s) :=
        toInt_accumulate (by rw [List.length_cons] at h; omega)
      rw [if_neg hok, ← hvalue, Option.some.injEq, ← Int64.toInt_inj, eq_comm]
      refine ⟨fun heq => ⟨⟨?_, ?_⟩, heq⟩, And.right⟩
      · exact Nat.le_add_left _ _
      · exact Nat.le_of_not_lt h

/-- The content of a number is the number in two's complement. -/
theorem content_signed (n : Int64) :
    (1 ≤ (content n).length ∧ (content n).length ≤ 8) ∧ n.toInt = signed (content n) :=
  read?_eq_some_iff.mp (read?_content n)

end Der.Integer

end DeviceAttest
