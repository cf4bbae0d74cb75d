import DeviceAttest.Proofs.Der.Distinguished
import DeviceAttest.Proofs.KeyDescription.RoundTrip
import Mathlib.Order.Bounds.Basic

/-!
# Numbers take the fewest octets that two's complement allows

Octets that repeat the sign of those after them change nothing in two's complement
(`Integer.signed_replicate_append`), and the octets of a number are the written ones after some of
these (`Integer.extends_content`).  As many octets as the range of a number takes are the written
ones themselves, and no others are (`Integer.content_eq_iff_fewest`).

`numbers_in_fewest_octets` puts this together with the reading of a number off the front of a byte
string, which refuses every content that is empty or longer than eight octets.
-/

namespace DeviceAttest

namespace Der.Integer

/-! ### Sign extension -/

/-- The octet that only repeats the sign of the octets after it. -/
def signOctet : Bytes → UInt8
  | []     => 0
  | b :: _ => if b < 128 then 0 else 255

/-- An octet is redundant exactly if it repeats the sign of those after it. -/
theorem redundant_iff {a b : UInt8} (s : Bytes) :
    (a = 0 ∧ b < 128) ∨ (a = 255 ∧ 128 ≤ b) ↔ a = signOctet (b :: s) := by
  by_cases hb : b < 128
  · have hge : ¬ 128 ≤ b := UInt8.not_le.mpr hb
    simp [signOctet, hb, hge]
  · have hge : 128 ≤ b := UInt8.not_lt.mp hb
    simp [signOctet, hb, hge]

/-- The octet that repeats a sign has it. -/
theorem signOctet_signOctet_cons (s t : Bytes) : signOctet (signOctet s :: t) = signOctet s := by
  have heither : signOctet s = 0 ∨ signOctet s = 255 := by
    cases s with
    | nil => exact .inl rfl
    | cons b s =>
      by_cases hb : b < 128
      · exact .inl (if_pos hb)
      · exact .inr (if_neg hb)
  rcases heither with hzero | hfull
  · rw [hzero]
    rfl
  · rw [hfull]
    rfl

/-- Octets that are extended have the sign that they had. -/
theorem signOctet_replicate_append (count : Nat) (s : Bytes) :
    signOctet (List.replicate count (signOctet s) ++ s) = signOctet s := by
  cases count with
  | zero => rfl
  | succ count =>
    rw [List.replicate_succ, List.cons_append]
    exact signOctet_signOctet_cons s _

/-- An octet that repeats the sign leaves the number as it is. -/
theorem signed_signOctet_cons (s : Bytes) : signed (signOctet s :: s) = signed s := by
  cases s with
  | nil => rfl
  | cons b s =>
    by_cases hb : b < 128
    · have hpos : (0 : UInt8) < 128 := by decide
      have hzero : (0 : UInt8).toNat = 0 := rfl
      rw [signOctet, if_pos hb, signed_cons 0, if_pos hpos, signed_cons b, if_pos hb,
        Bytes.bigEndian_cons, hzero, Nat.zero_mul, Nat.zero_add]
    · have hneg : ¬ (255 : UInt8) < 128 := by decide
      have hfull : (255 : UInt8).toNat = 255 := rfl
      rw [signOctet, if_neg hb, signed_cons 255, if_neg hneg, signed_cons b, if_neg hb,
        Bytes.bigEndian_cons, hfull, List.length_cons, Nat.pow_succ]
      omega

/-- **Sign extension keeps the number.** -/
theorem signed_replicate_append (count : Nat) (s : Bytes) :
    signed (List.replicate count (signOctet s) ++ s) = signed s := by
  induction count with
  | zero => rfl
  | succ count ih =>
    -- the octets so far have the same sign, so the next one extends them, too
    have hsign := signOctet_replicate_append count s
    have hstep := signed_signOctet_cons (List.replicate count (signOctet s) ++ s)
    rw [hsign] at hstep
    rw [List.replicate_succ, List.cons_append, hstep, ih]

/-- Octets are others after some that only repeat the sign of these, which have none to spare. -/
structure Extends (s t : Bytes) : Prop where
  front : ∃ count, s = List.replicate count (signOctet t) ++ t
  irredundant : Irredundant t

/-- What is dropped repeats the sign of what is left. -/
theorem extends_dropRedundant (s : Bytes) : Extends s (dropRedundant s) := by
  refine ⟨?_, irredundant_dropRedundant s⟩
  induction s with
  | nil => exact ⟨0, rfl⟩
  | cons a s ih =>
    cases s with
    | nil => exact ⟨0, rfl⟩
    | cons b s =>
      rw [dropRedundant]
      by_cases h : (a = 0 ∧ b < 128) ∨ (a = 255 ∧ 128 ≤ b)
      · obtain ⟨count, hlater⟩ := ih
        -- the octets after it have the sign of what is left of them
        have ha : a = signOctet (dropRedundant (b :: s)) := by
          rw [← signOctet_replicate_append count, ← hlater]
          exact (redundant_iff s).mp h
        rw [if_pos h]
        exact ⟨count + 1, by rw [List.replicate_succ, List.cons_append, ← hlater, ← ha]⟩
      · rw [if_neg h]
        exact ⟨0, rfl⟩

/-- What is extended spells the same number. -/
theorem Extends.signed_eq {s t : Bytes} (h : Extends s t) : signed s = signed t := by
  obtain ⟨count, rfl⟩ := h.front
  exact signed_replicate_append count t

/-- What is left of the octets of a number is what is written for it. -/
theorem content_eq_dropRedundant {s : Bytes} {n : Int64} (h : read? s = some n) :
    content n = dropRedundant s := by
  obtain ⟨⟨hpos, -⟩, hvalue⟩ := read?_eq_some_iff.mp h
  obtain ⟨a, s, rfl⟩ := List.exists_cons_of_length_pos hpos
  have hleft : 1 ≤ (dropRedundant (a :: s)).length :=
    List.length_pos_of_ne_nil (dropRedundant_cons a s).2.2
  have hspelled := hvalue.trans (extends_dropRedundant (a :: s)).signed_eq
  exact ((eq_content_iff hleft hspelled).mpr (irredundant_dropRedundant _)).symm

/-- The octets of a number are the written ones after some that repeat their sign. -/
theorem extends_content {s : Bytes} {n : Int64} (h : read? s = some n) : Extends s (content n) := by
  rw [content_eq_dropRedundant h]
  exact extends_dropRedundant s

/-! ### The fewest octets -/

/-- The least count of one to eight octets in whose two's complement range a number is. -/
def Fewest (n : Int64) (count : Nat) : Prop :=
  IsLeast {k | (1 ≤ k ∧ k ≤ 8) ∧ Fits k n.toInt} count

/-- A number is written in the fewest octets. -/
theorem fewest_content (n : Int64) : Fewest n (content n).length := by
  obtain ⟨hlength, -⟩ := content_signed n
  constructor
  · obtain ⟨k, hk⟩ : ∃ k, (content n).length = k + 1 := Nat.exists_eq_add_one.mpr hlength.1
    exact ⟨hlength, hk ▸ length_content_le_iff.mp (Nat.le_of_eq hk)⟩
  · rintro k ⟨⟨hpos, -⟩, hfits⟩
    obtain ⟨k, rfl⟩ := Nat.exists_eq_add_one.mpr hpos
    exact length_content_le_iff.mpr hfits

/-- **Octets of a number are the written ones exactly if they are the fewest.** -/
theorem content_eq_iff_fewest {s : Bytes} {n : Int64} (h : read? s = some n) :
    content n = s ↔ Fewest n s.length := by
  constructor
  · rintro rfl
    exact fewest_content n
  · intro hfewest
    have hvalue := (read?_eq_some_iff.mp h).2
    exact signed_inj ((fewest_content n).unique hfewest) ((content_signed n).2.symm.trans hvalue)

/-! ### Which octets are read -/

/-- Octets are not read exactly if there are none of them or more than eight. -/
theorem read?_eq_none_iff {s : Bytes} : read? s = none ↔ s.length = 0 ∨ 8 < s.length := by
  by_cases h : s.length = 0 ∨ 8 < s.length
  · rw [read?, if_pos h]
    exact iff_of_true rfl h
  · rw [read?, if_neg h]
    exact iff_of_false (Option.some_ne_none _) h

/-- One to eight octets are read as their two's complement value. -/
theorem exists_read?_eq_some {s : Bytes} (hpos : 1 ≤ s.length) (hle : s.length ≤ 8) :
    ∃ n, read? s = some n ∧ n.toInt = signed s := by
  have hread : read? s ≠ none := fun hnone => by
    have hother := read?_eq_none_iff.mp hnone
    omega
  obtain ⟨n, hn⟩ := Option.ne_none_iff_exists'.mp hread
  exact ⟨n, hn, (read?_eq_some_iff.mp hn).2⟩

end Der.Integer

namespace KeyDescription

open Der (Element integer enumerated)
open Der.Integer (read? content signed Fewest Extends)

/-! ### Numbers in elements -/

/-- A part whose content is no number is refused for its length. -/
theorem readNumber_unread {part : Part} {t s rest : Bytes} (hpart : readPart part t = .ok (s, rest))
    (h : read? s = none) : readNumber part t = .error (.unsupportedLength part) := by
  rw [readNumber, hpart]
  simp only [bind, Except.bind, h]

/-- The element of a number is read to its end. -/
theorem readNumber_write_nil {part : Part} {e : Element} {n : Int64}
    (hclass : e.tagClass = .universal) (hnumber : e.number = part.number)
    (hcontent : e.content = content n) : readNumber part e.write = .ok (n, []) := by
  have hread := readNumber_write hclass hnumber hcontent []
  rwa [List.append_nil] at hread

/-- **Numbers are two's complement in the fewest octets.**  A content of one to eight octets is
read as the number that it is in two's complement; every other one is refused for its length.  A
number is read back from its element, of which nothing is left, and its content has the fewest
octets in whose range the number is.  Whatever octets a number is read from, they are the content
that is written for it exactly if they are the fewest, and otherwise they are this content after
octets that only repeat its sign, none of which it keeps. -/
theorem numbers_in_fewest_octets :
    (∀ s : Bytes, 1 ≤ s.length → s.length ≤ 8 → ∃ n, read? s = some n ∧ n.toInt = signed s) ∧
      (∀ s : Bytes, s.length = 0 ∨ 8 < s.length →
        read? s = none ∧ ∀ part t rest, readPart part t = .ok (s, rest) →
          readNumber part t = .error (.unsupportedLength part)) ∧
      (∀ n : Int64, readNumber .integer (integer n).write = .ok (n, []) ∧
        readNumber .enumerated (enumerated n).write = .ok (n, []) ∧
        Fewest n (content n).length) ∧
      ∀ s n, read? s = some n → (content n = s ↔ Fewest n s.length) ∧ Extends s (content n) := by
  refine ⟨fun s hpos hle => Der.Integer.exists_read?_eq_some hpos hle, fun s hother => ?_,
    fun n => ⟨?_, ?_, ?_⟩,
    fun s n h => ⟨Der.Integer.content_eq_iff_fewest h, Der.Integer.extends_content h⟩⟩
  · have hnone := Der.Integer.read?_eq_none_iff.mpr hother
    exact ⟨hnone, fun part t rest hpart => readNumber_unread hpart hnone⟩
  · exact readNumber_write_nil rfl rfl rfl
  · exact readNumber_write_nil rfl rfl rfl
  · exact Der.Integer.fewest_content n

/-- The number -129 with an octet more than it needs, and an INTEGER without content. -/
theorem extended_number_in_fewest_octets :
    read? [0xff, 0xff, 0x7f] = some (-129) ∧ ¬ Fewest (-129) 3 ∧
      Extends [0xff, 0xff, 0x7f] (content (-129)) ∧
      readPart .integer [0x02, 0x00] = .ok ([], []) ∧
      readNumber .integer [0x02, 0x00] = .error (.unsupportedLength .integer) := by
  have hread : read? [0xff, 0xff, 0x7f] = some (-129) := by decide
  have hpart : readPart .integer [0x02, 0x00] = .ok ([], []) := by rfl
  obtain ⟨-, hrefused, -, hwritten⟩ := numbers_in_fewest_octets
  obtain ⟨hiff, hextends⟩ := hwritten _ _ hread
  refine ⟨hread, fun hfewest => ?_, hextends, hpart, (hrefused [] (.inl rfl)).2 _ _ _ hpart⟩
  have hsame := hiff.mpr hfewest
  revert hsame
  decide

end KeyDescription

end DeviceAttest
