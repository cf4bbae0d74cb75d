import DeviceAttest.Proofs.Der.Element
import DeviceAttest.Proofs.Der.Signed
import DeviceAttest.Proofs.Der.Spelling

/-!
# What is written is the shortest

No spelling of a tag number or of a length has fewer octets than the ones that are written, so an
element with the number of a spelling and no more content is not written longer
(`Spelling.length_write_le`).  The length octets of a sum are no more than those of both summands
(`length_lengthOctets_add_le`).

Integers have the fewest octets, too: no shorter ones spell the same number
(`Integer.length_content_le`), for octets whose first one is not redundant are out of the range of
any shorter ones.
-/

namespace DeviceAttest.Der

/-! ### Tag numbers -/

/-- Some digits spell a number below the power of their count. -/
theorem Digits.lt {s : Bytes} {n : Nat} (h : Digits s n) : n < 128 ^ s.length := by
  induction h with
  | @last b hb => exact UInt8.lt_iff_toNat_lt.mp hb
  | @more b s n hb hs ih =>
    have hlt := b.toNat_lt
    have hfirst : (b.toNat - 128) * 128 ^ s.length ≤ 127 * 128 ^ s.length :=
      Nat.mul_le_mul_right _ (by omega)
    rw [List.length_cons, Nat.pow_succ]
    omega

namespace Element

theorem length_groups_le (k n : Nat) : (groups n).length ≤ k + 1 ↔ n < 128 ^ (k + 1) := by
  have hleading : (leadingGroups (n / 128)).length ≤ k ↔ n / 128 < 128 ^ k :=
    Bytes.length_digits_le (by decide) (fun n => by rw [leadingGroups]) k _
  rw [groups, List.length_append, List.length_singleton, Nat.add_le_add_iff_right, hleading,
    Nat.div_lt_iff_lt_mul (by decide), Nat.pow_succ]

/-- The identifier octets of a low tag number are one. -/
theorem length_identifier_of_lt {number : UInt32} (h : number < 31) (tagClass : TagClass)
    (constructed : Bool) : (identifier tagClass constructed number).length = 1 := by
  rw [identifier, if_pos h]
  rfl

/-- **Tag numbers are written in the fewest octets** that spell them modulo 2^32. -/
theorem length_identifier_le {first : UInt8} {digits : Bytes} {n : Nat}
    (h : TagOctets first digits n) (tagClass : TagClass) (constructed : Bool) :
    (identifier tagClass constructed (.ofNat n)).length ≤ digits.length + 1 := by
  have hmod : (UInt32.ofNat n).toNat = n % 2 ^ 32 := UInt32.toNat_ofNat'
  by_cases hlow : UInt32.ofNat n < 31
  · rw [length_identifier_of_lt hlow]
    exact Nat.le_add_left _ _
  · have hge : 31 ≤ (UInt32.ofNat n).toNat := UInt32.le_iff_toNat_le.mp (UInt32.not_lt.mp hlow)
    cases h with
    | low hne =>
      have hlt : first.toNat % 32 ≠ 31 := fun heq =>
        hne (UInt8.toNat_inj.mp ((UInt8.toNat_mod first 32).trans heq))
      omega
    | high hmore hd =>
      -- the number modulo 2^32 is no greater, so it takes no more digits
      have hbound : (UInt32.ofNat n).toNat < 128 ^ digits.length :=
        Nat.lt_of_le_of_lt (hmod ▸ Nat.mod_le _ _) hd.lt
      obtain ⟨k, hk⟩ : ∃ k, digits.length = k + 1 := by
        cases hd with
        | last => exact ⟨0, rfl⟩
        | more => exact ⟨_, rfl⟩
      rw [hk] at hbound ⊢
      rw [identifier, if_neg hlow, List.length_cons]
      exact Nat.succ_le_succ ((length_groups_le k _).mpr hbound)

/-! ### Lengths -/

/-- Which lengths take how many octets at most. -/
theorem length_lengthOctets_le (k n : Nat) :
    (lengthOctets n).length ≤ k + 1 ↔ n < 128 ∨ n < 256 ^ k := by
  unfold lengthOctets
  by_cases h : n < 128
  · rw [if_pos h]
    exact iff_of_true (Nat.le_add_left _ _) (.inl h)
  · rw [if_neg h, List.length_cons, Nat.add_le_add_iff_right, Bytes.length_ofNat_le, or_iff_right h]

theorem exists_length_lengthOctets (n : Nat) : ∃ k, (lengthOctets n).length = k + 1 :=
  Nat.exists_eq_add_one.mpr (List.length_pos_of_ne_nil (lengthOctets_ne_nil n))

theorem length_lengthOctets_mono {m n : Nat} (h : m ≤ n) :
    (lengthOctets m).length ≤ (lengthOctets n).length := by
  obtain ⟨k, hk⟩ := exists_length_lengthOctets n
  rw [hk, length_lengthOctets_le]
  have hn := (length_lengthOctets_le k n).mp (Nat.le_of_eq hk)
  omega

/-- **The octets of a sum** are no more than those of both summands. -/
theorem length_lengthOctets_add_le (m n : Nat) :
    (lengthOctets (m + n)).length ≤ (lengthOctets m).length + (lengthOctets n).length := by
  -- with `k + 1` octets at most, a length is below `128 * 256 ^ k`
  have hbelow {k n : Nat} (h : n < 128 ∨ n < 256 ^ k) : n < 128 * 256 ^ k := by
    have hpos : 0 < 256 ^ k := Nat.pow_pos (by decide)
    omega
  obtain ⟨j, hj⟩ := exists_length_lengthOctets m
  obtain ⟨k, hk⟩ := exists_length_lengthOctets n
  have hm := hbelow ((length_lengthOctets_le j m).mp (Nat.le_of_eq hj))
  have hn := hbelow ((length_lengthOctets_le k n).mp (Nat.le_of_eq hk))
  have hj' : 256 ^ j ≤ 256 ^ (j + k) := Nat.pow_le_pow_right (by decide) (Nat.le_add_right j k)
  have hk' : 256 ^ k ≤ 256 ^ (j + k) := Nat.pow_le_pow_right (by decide) (Nat.le_add_left k j)
  have hsum : m + n < 256 ^ (j + k + 1) := by
    rw [Nat.pow_succ]
    omega
  rw [hj, hk, show j + 1 + (k + 1) = j + k + 1 + 1 by omega]
  exact (length_lengthOctets_le _ _).mpr (.inr hsum)

end Element

/-- **Lengths are written in the fewest octets** that spell them, and shorter ones in no more. -/
theorem SizeOctets.length_lengthOctets_le {size : Bytes} {m n : Nat} (h : SizeOctets size n)
    (hle : m ≤ n) : (Element.lengthOctets m).length ≤ size.length := by
  cases h with
  | @short b hb =>
    have hlt : b.toNat < 128 := UInt8.lt_iff_toNat_lt.mp hb
    exact (Element.length_lengthOctets_le 0 m).mpr (.inl (by omega))
  | @long b s hcount hpos hfour =>
    exact (Element.length_lengthOctets_le _ m).mpr
      (.inr (Nat.lt_of_le_of_lt hle (Bytes.bigEndian_lt s)))

/-! ### Elements -/

theorem Element.length_write (e : Element) :
    e.write.length =
      (Element.identifier e.tagClass e.constructed e.number).length +
        (Element.lengthOctets e.content.length).length + e.content.length := by
  rw [Element.write, Element.header, List.length_append, List.length_append]

/-- The octets of a spelling are one for the tag number, as many as its length takes, and the content,
at the least. -/
theorem Spelling.length_lengthOctets_le (p : Spelling) :
    1 + (Element.lengthOctets p.content.length).length + p.content.length ≤ p.octets.length := by
  have hsize := p.spells_length.length_lengthOctets_le (Nat.le_refl _)
  simp only [octets, List.length_cons, List.length_append]
  omega

/-- **An element is not written longer than a spelling** of its tag number whose content is as
long, or longer. -/
theorem Spelling.length_write_le {e : Element} {p : Spelling} (hnumber : e.number = p.tag)
    (hcontent : e.content.length ≤ p.content.length) : e.write.length ≤ p.octets.length := by
  have hidentifier := Element.length_identifier_le p.spells_number e.tagClass e.constructed
  have hsize := p.spells_length.length_lengthOctets_le hcontent
  change (Element.identifier _ _ p.tag).length ≤ _ at hidentifier
  rw [Element.length_write, hnumber, octets]
  simp only [List.length_cons, List.length_append]
  omega

/-! ### Integers -/

namespace Integer

/-- The first octet does not only repeat the sign bit of the second one. -/
def Irredundant : Bytes → Prop
  | a :: b :: _ => ¬ ((a = 0 ∧ b < 128) ∨ (a = 255 ∧ 128 ≤ b))
  | _           => True

instance : DecidablePred Irredundant
  | []          => .isTrue trivial
  | [_]         => .isTrue trivial
  | _ :: _ :: _ => inferInstanceAs (Decidable (¬ _))

theorem irredundant_dropRedundant (s : Bytes) : Irredundant (dropRedundant s) := by
  induction s with
  | nil => trivial
  | cons a s ih =>
    cases s with
    | nil => trivial
    | cons b s =>
      rw [dropRedundant]
      by_cases h : (a = 0 ∧ b < 128) ∨ (a = 255 ∧ 128 ≤ b)
      · rw [if_pos h]
        exact ih
      · rw [if_neg h]
        exact h

/-- A number is in the two's complement range of some octets. -/
def Fits (count : Nat) (n : Int) : Prop := -2 ^ (8 * count - 1) ≤ n ∧ n < 2 ^ (8 * count - 1)

theorem fits_succ_iff {k : Nat} {n : Int} :
    Fits (k + 1) n ↔ -((128 * 256 ^ k : Nat) : Int) ≤ n ∧ n < ((128 * 256 ^ k : Nat) : Int) := by
  have hpow : (2 : Nat) ^ (8 * (k + 1) - 1) = 128 * 256 ^ k := by
    rw [show 8 * (k + 1) - 1 = 7 + 8 * k by omega, Nat.pow_add, Nat.pow_mul]
  have hcast : (2 : Int) ^ (8 * (k + 1) - 1) = ((128 * 256 ^ k : Nat) : Int) := by
    rw [← hpow, Int.natCast_pow]
    rfl
  rw [Fits, hcast]

/-- More octets have a wider range. -/
theorem Fits.mono {j k : Nat} {n : Int} (h : Fits (j + 1) n) (hjk : j ≤ k) : Fits (k + 1) n := by
  rw [fits_succ_iff] at h ⊢
  have hpow : 256 ^ j ≤ 256 ^ k := Nat.pow_le_pow_right (by decide) hjk
  omega

/-- The value of some octets, with the weight of the first one written out. -/
theorem signed_cons (b : UInt8) (s : Bytes) :
    signed (b :: s) =
      if b < 128 then ((b.toNat * 256 ^ s.length + Bytes.bigEndian s : Nat) : Int)
      else ((b.toNat * 256 ^ s.length + Bytes.bigEndian s : Nat) : Int) -
        ((256 ^ s.length * 256 : Nat) : Int) := by
  have hpow : (256 : Int) ^ (s.length + 1) = ((256 ^ s.length * 256 : Nat) : Int) := by
    rw [← Nat.pow_succ, Int.natCast_pow]
    rfl
  rw [signed, Bytes.bigEndian_cons, hpow]

/-- Some octets spell a number in their range. -/
theorem fits_signed (b : UInt8) (s : Bytes) : Fits (s.length + 1) (signed (b :: s)) := by
  have htail := Bytes.bigEndian_lt s
  rw [fits_succ_iff, signed_cons]
  by_cases hb : b < 128
  · have hlt : b.toNat < 128 := UInt8.lt_iff_toNat_lt.mp hb
    have hfirst := Nat.mul_le_mul_right (256 ^ s.length) (Nat.le_of_lt_succ hlt)
    rw [if_pos hb]
    omega
  · have hge : 128 ≤ b.toNat := UInt8.le_iff_toNat_le.mp (UInt8.not_lt.mp hb)
    have hfirst := Nat.mul_le_mul_right (256 ^ s.length) hge
    have hlast := Nat.mul_le_mul_right (256 ^ s.length) (Nat.le_of_lt_succ b.toNat_lt)
    rw [if_neg hb]
    omega

/-- What octets spell whose first one is not redundant is out of the range of the others. -/
theorem not_fits_signed {a b : UInt8} {s : Bytes} (h : Irredundant (a :: b :: s)) :
    ¬ Fits (s.length + 1) (signed (a :: b :: s)) := by
  have htail := Bytes.bigEndian_lt s
  have hlast := Nat.mul_le_mul_right (256 ^ s.length) (Nat.le_of_lt_succ b.toNat_lt)
  rw [fits_succ_iff, signed_cons, Bytes.bigEndian_cons, List.length_cons, Nat.pow_succ]
  by_cases ha : a < 128
  · rw [if_pos ha]
    by_cases hzero : a = 0
    · -- the second octet has the other sign, so it counts
      have hb : 128 ≤ b := UInt8.not_lt.mp fun hb => h (.inl ⟨hzero, hb⟩)
      have hsecond := Nat.mul_le_mul_right (256 ^ s.length) (UInt8.le_iff_toNat_le.mp hb)
      change 128 * _ ≤ _ at hsecond
      omega
    · have hpos : 1 ≤ a.toNat :=
        Nat.pos_of_ne_zero fun heq => hzero (UInt8.toNat_inj.mp heq)
      have hfirst := Nat.mul_le_mul_right (256 ^ s.length * 256) hpos
      omega
  · rw [if_neg ha]
    by_cases hfull : a = 255
    · have hb : b < 128 := UInt8.not_le.mp fun hb => h (.inr ⟨hfull, hb⟩)
      have hlt : b.toNat < 128 := UInt8.lt_iff_toNat_lt.mp hb
      have hsecond := Nat.mul_le_mul_right (256 ^ s.length) (Nat.le_of_lt_succ hlt)
      have hvalue : a.toNat = 255 := congrArg UInt8.toNat hfull
      rw [hvalue]
      omega
    · have hlt : a.toNat ≤ 254 := by
        have hne : a.toNat ≠ 255 := fun heq => hfull (UInt8.toNat_inj.mp heq)
        have hle := a.toNat_lt
        omega
      have hfirst := Nat.mul_le_mul_right (256 ^ s.length * 256) hlt
      omega

/-- Octets without a redundant one are no more than their number needs. -/
theorem length_le_of_fits {s : Bytes} (h : Irredundant s) {k : Nat} (hk : Fits (k + 1) (signed s)) :
    s.length ≤ k + 1 := by
  match s with
  | [] | [_] => simp
  | a :: b :: s =>
    rw [List.length_cons, List.length_cons, Nat.add_le_add_iff_right]
    by_contra hlt
    exact not_fits_signed h (hk.mono (by omega))

/-- **Integers are written in the fewest octets** in whose range they are. -/
theorem length_content_le_iff {n : Int64} {k : Nat} :
    (content n).length ≤ k + 1 ↔ Fits (k + 1) n.toInt := by
  obtain ⟨⟨hpos, -⟩, hvalue⟩ := content_signed n
  rw [hvalue]
  constructor
  · intro h
    match hcontent : content n with
    | [] => rw [hcontent] at hpos; cases hpos
    | b :: s =>
      rw [hcontent, List.length_cons, Nat.add_le_add_iff_right] at h
      exact (fits_signed b s).mono h
  · exact length_le_of_fits (irredundant_dropRedundant _)

/-- No fewer octets are read as the same number. -/
theorem length_content_le {s : Bytes} {n : Int64} (h : n.toInt = signed s) (hs : 1 ≤ s.length) :
    (content n).length ≤ s.length := by
  match s with
  | b :: s => exact length_content_le_iff.mpr (h ▸ fits_signed b s)

end Integer

end DeviceAttest.Der
