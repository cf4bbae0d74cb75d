import DeviceAttest.Der.Integer
import Mathlib.Algebra.Group.Nat.Defs

/-!
# Integers are read as they were written

The eight octets of a number spell it whatever is accumulated before them, and octets that only
repeat the sign bit contribute what the sign fill does without them.  So the fewest octets spell
the number, too (`read?_content`).
-/

namespace DeviceAttest.Der.Integer

/-! ### Accumulation -/

/-- What is accumulated before some octets counts by their number. -/
theorem bigEndianFrom_eq (acc : Nat) (s : Bytes) :
    Bytes.bigEndianFrom acc s = acc * 256 ^ s.length + Bytes.bigEndian s := by
  induction s generalizing acc with
  | nil => simp [Bytes.bigEndian, Bytes.bigEndianFrom]
  | cons b s ih =>
    have hsplit : Bytes.bigEndian (b :: s) = b.toNat * 256 ^ s.length + Bytes.bigEndian s := by
      rw [Bytes.bigEndian, Bytes.bigEndianFrom, ih, Nat.zero_mul, Nat.zero_add]
    rw [Bytes.bigEndianFrom, ih, hsplit, List.length_cons, Nat.pow_succ, Nat.add_mul,
      Nat.mul_assoc, Nat.mul_comm 256, Nat.add_assoc]

theorem accumulate_cons (acc : Int64) (b : UInt8) (s : Bytes) :
    accumulate acc (b :: s) = accumulate (acc * 256 + Int64.ofNat b.toNat) s :=
  List.foldl_cons ..

/-- Shifting octets into a number is to accumulate them, modulo 2^64. -/
theorem toNat_accumulate (acc : Int64) (s : Bytes) :
    (accumulate acc s).toUInt64.toNat =
      Bytes.bigEndianFrom acc.toUInt64.toNat s % 2 ^ 64 := by
  induction s generalizing acc with
  | nil => exact (Nat.mod_eq_of_lt acc.toUInt64.toNat_lt).symm
  | cons b s ih =>
    have hstep : (acc * 256 + Int64.ofNat b.toNat).toUInt64.toNat =
        (acc.toUInt64.toNat * 256 + b.toNat) % 2 ^ 64 := by
      show (acc.toUInt64 * 256 + UInt64.ofNat b.toNat).toNat = _
      have hb := b.toNat_lt
      simp only [UInt64.toNat_add, UInt64.toNat_mul, UInt64.toNat_ofNat', UInt64.reduceToNat]
      omega
    rw [accumulate_cons, ih, hstep, bigEndianFrom_eq, Bytes.bigEndianFrom, bigEndianFrom_eq,
      Nat.add_mod, Nat.mod_mul_mod, ← Nat.add_mod]

/-- The eight octets of a number have its value. -/
theorem bigEndian_octets (n : Int64) : Bytes.bigEndian (octets n) = n.toUInt64.toNat := by
  have hlt := n.toUInt64.toNat_lt
  simp only [octets, List.map_cons, List.map_nil, Bytes.bigEndian, Bytes.bigEndianFrom,
    UInt64.toNat_toUInt8, UInt64.toNat_shiftRight, UInt64.reduceToNat,
    Nat.shiftRight_eq_div_pow, Nat.reduceMod, Nat.reducePow]
  omega

/-- The eight octets of a number spell it, whatever came before. -/
theorem accumulate_octets (acc n : Int64) : accumulate acc (octets n) = n := by
  have hnat : (accumulate acc (octets n)).toUInt64.toNat = n.toUInt64.toNat := by
    have hlength : (octets n).length = 8 := rfl
    have hlt := n.toUInt64.toNat_lt
    -- eight octets move whatever came before out of the 64 bits
    rw [toNat_accumulate, bigEndianFrom_eq, bigEndian_octets, hlength]
    omega
  exact Int64.toBitVec_inj.mp (congrArg UInt64.toBitVec (UInt64.toNat_inj.mp hnat))

/-! ### Redundant octets -/

/-- Dropping an octet that only repeats the sign bit after it changes nothing in what is spelled. -/
theorem accumulate_redundant {a b : UInt8} (h : (a = 0 ∧ b < 128) ∨ (a = 255 ∧ 128 ≤ b))
    (s : Bytes) :
    accumulate (signFill (a :: b :: s)) (a :: b :: s) =
      accumulate (signFill (b :: s)) (b :: s) := by
  -- the fill after the octet is the one before it, and takes the octet in without a change
  rcases h with ⟨rfl, hb⟩ | ⟨rfl, hb⟩
  · have hpos : (0 : UInt8) < 128 := by decide
    have hshift : (0 : Int64) * 256 + Int64.ofNat (0 : UInt8).toNat = 0 := by decide
    rw [signFill, signFill, if_pos hpos, if_pos hb, accumulate_cons _ 0, hshift]
  · have hneg : ¬ (255 : UInt8) < 128 := by decide
    have hshift : (-1 : Int64) * 256 + Int64.ofNat (255 : UInt8).toNat = -1 := by decide
    rw [signFill, signFill, if_neg hneg, if_neg (UInt8.not_lt.mpr hb), accumulate_cons _ 255,
      hshift]

/-- What is left of some octets spells what all of them do, and is no longer but not empty. -/
theorem dropRedundant_cons (a : UInt8) (s : Bytes) :
    let left := dropRedundant (a :: s)
    accumulate (signFill left) left = accumulate (signFill (a :: s)) (a :: s) ∧
      left.length ≤ s.length + 1 ∧ left ≠ [] := by
  induction s generalizing a with
  | nil => exact ⟨rfl, Nat.le_refl _, List.cons_ne_nil _ _⟩
  | cons b s ih =>
    intro left
    by_cases h : (a = 0 ∧ b < 128) ∨ (a = 255 ∧ 128 ≤ b)
    · have hleft : left = dropRedundant (b :: s) := if_pos h
      obtain ⟨hspelled, hlength, hne⟩ := ih b
      rw [hleft, accumulate_redundant h]
      exact ⟨hspelled, Nat.le_succ_of_le hlength, hne⟩
    · have hleft : left = a :: b :: s := if_neg h
      rw [hleft]
      exact ⟨rfl, Nat.le_refl _, List.cons_ne_nil _ _⟩

/-- The content of a number spells it in one to eight octets. -/
theorem content_spells (n : Int64) :
    accumulate (signFill (content n)) (content n) = n ∧ (content n).length ≤ 8 ∧
      content n ≠ [] := by
  obtain ⟨a, s, hcons, hseven⟩ : ∃ a s, octets n = a :: s ∧ s.length = 7 := ⟨_, _, rfl, rfl⟩
  obtain ⟨hspelled, hlength, hne⟩ := dropRedundant_cons a s
  rw [← hcons] at hspelled hlength hne
  rw [hseven] at hlength
  rw [accumulate_octets] at hspelled
  exact ⟨hspelled, hlength, hne⟩

/-- **A number is read back from its fewest octets.** -/
theorem read?_content (n : Int64) : read? (content n) = some n := by
  obtain ⟨hspelled, hlength, hne⟩ := content_spells n
  have hzero : (content n).length ≠ 0 := mt List.length_eq_zero_iff.mp hne
  rw [read?, if_neg (by omega), hspelled]

end DeviceAttest.Der.Integer
