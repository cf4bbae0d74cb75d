import DeviceAttest.Proofs.Der.Shortest
import Mathlib.Data.List.Forall2

/-!
# Distinguished spellings

Of the spellings of an element one is distinguished: it spells the tag number itself and no number
that leaves it modulo 2^32; the number stands in the first octet if it can, and otherwise has no
leading zero digit; the length takes one octet if it can, and otherwise has no leading zero octet.
It is the one that is written (`Spelling.octets_eq_write_iff`), and elements written one after
another are as many spellings that are written (`Spelling.flatMap_octets_append_eq_iff`).

Likewise, of the contents of an integer the one without a redundant octet is written
(`Integer.eq_content_iff`).

For all three, octets are determined by how many they are and by the number that they spell.
-/

namespace DeviceAttest

/-! ### Octets of a number -/

/-- Quotient and remainder are determined. -/
theorem weighted_inj {w a b x y : Nat} (hx : x < w) (hy : y < w) (h : a * w + x = b * w + y) :
    a = b ∧ x = y := by
  have hquotient {a x : Nat} (hx : x < w) : (a * w + x) / w = a := by
    rw [Nat.mul_comm, Nat.mul_add_div (by omega), Nat.div_eq_of_lt hx, Nat.add_zero]
  obtain rfl : a = b := (hquotient hx).symm.trans ((congrArg (· / w) h).trans (hquotient hy))
  exact ⟨rfl, Nat.add_left_cancel h⟩

/-- A weighted sum stays below the weight if it is the remainder only. -/
theorem weighted_lt_iff {w a x : Nat} (hx : x < w) : a * w + x < w ↔ a = 0 := by
  constructor
  · intro h
    by_contra hne
    have hweight := Nat.mul_le_mul_right w (Nat.pos_of_ne_zero hne)
    omega
  · rintro rfl
    rwa [Nat.zero_mul, Nat.zero_add]

namespace Bytes

/-- Octets of the same number that are as many are the same. -/
theorem bigEndian_inj {s t : Bytes} (hlength : s.length = t.length)
    (h : bigEndian s = bigEndian t) : s = t := by
  induction s generalizing t with
  | nil => exact (List.length_eq_zero_iff.mp hlength.symm).symm
  | cons b s ih =>
    obtain ⟨c, t, rfl⟩ := List.exists_cons_of_length_eq_add_one hlength.symm
    have hlater : s.length = t.length := Nat.succ.inj hlength
    rw [bigEndian_cons, bigEndian_cons, hlater] at h
    obtain ⟨hfirst, hrest⟩ := weighted_inj (hlater ▸ bigEndian_lt s) (bigEndian_lt t) h
    rw [UInt8.toNat_inj.mp hfirst, ih hlater hrest]

/-- Octets are those that are written for their number exactly if the first one is not zero. -/
theorem eq_ofNat_bigEndian_iff (s : Bytes) : s = ofNat (bigEndian s) ↔ s.head? ≠ some 0 := by
  cases s with
  | nil =>
    refine iff_of_true ?_ (Option.some_ne_none 0).symm
    rw [ofNat]
    rfl
  | cons b s =>
    -- one octet less is enough exactly if the first one is zero
    have hfewer : (ofNat (bigEndian (b :: s))).length ≤ s.length ↔ b = 0 := by
      rw [length_ofNat_le, bigEndian_cons, weighted_lt_iff (bigEndian_lt s), ← UInt8.toNat_inj]
      rfl
    have hle : (ofNat (bigEndian (b :: s))).length ≤ s.length + 1 :=
      (length_ofNat_le _ _).mpr (bigEndian_lt (b :: s))
    rw [List.head?_cons, ne_eq, Option.some.injEq, ← hfewer]
    constructor
    · intro heq hshort
      rw [← heq, List.length_cons] at hshort
      omega
    · intro hmore
      refine bigEndian_inj ?_ (bigEndian_ofNat _).symm
      rw [List.length_cons]
      omega

end Bytes

namespace Der

/-! ### Tag numbers -/

theorem Digits.length_pos {s : Bytes} {n : Nat} (h : Digits s n) : 1 ≤ s.length := by
  cases h with
  | last => exact Nat.le_refl _
  | more => exact Nat.le_add_left _ _

/-- Digits of the same number that are as many are the same. -/
theorem Digits.inj {s t : Bytes} {m n : Nat} (h : Digits s m) (h' : Digits t n)
    (hlength : s.length = t.length) (heq : m = n) : s = t := by
  induction h generalizing t n with
  | last hb =>
    cases h' with
    | last => rw [UInt8.toNat_inj.mp heq]
    | more _ ht =>
      have hpos := ht.length_pos
      simp only [List.length_cons, List.length_nil] at hlength
      omega
  | @more b s m hb hs ih =>
    cases h' with
    | last =>
      have hpos := hs.length_pos
      simp only [List.length_cons, List.length_nil] at hlength
      omega
    | @more c t n hc ht =>
      have hlater := Nat.succ.inj hlength
      rw [hlater] at heq
      obtain ⟨hfirst, hrest⟩ := weighted_inj (hlater ▸ hs.lt) ht.lt heq
      have hb' := UInt8.le_iff_toNat_le.mp hb
      have hc' := UInt8.le_iff_toNat_le.mp hc
      change 128 ≤ _ at hb' hc'
      have hdigit : b.toNat = c.toNat := by omega
      rw [UInt8.toNat_inj.mp hdigit, ih ht hlater hrest]

namespace Element

/-- Marked digits in front of others count by the number of these. -/
theorem digits_leadingGroups (m : Nat) {s : Bytes} {n : Nat} (h : Digits s n) :
    Digits (leadingGroups m ++ s) (m * 128 ^ s.length + n) := by
  fun_induction leadingGroups m generalizing s n with
  | case1 => rwa [Nat.zero_mul, Nat.zero_add]
  | case2 m hm ih =>
    have hvalue : (UInt8.ofNat (128 + m % 128)).toNat = 128 + m % 128 := by
      rw [UInt8.toNat_ofNat']
      omega
    have hmarked : 128 ≤ UInt8.ofNat (128 + m % 128) := by
      rw [UInt8.le_iff_toNat_le, hvalue]
      exact Nat.le_add_right _ _
    have hdigits := ih (.more hmarked h)
    have hnumber : m / 128 * 128 ^ (s.length + 1) + (m % 128 * 128 ^ s.length + n) =
        m * 128 ^ s.length + n := by
      rw [Nat.pow_succ', ← Nat.mul_assoc, ← Nat.add_assoc, ← Nat.add_mul, Nat.div_add_mod']
    rw [hvalue, Nat.add_sub_cancel_left, List.length_cons, hnumber] at hdigits
    rwa [List.append_assoc]

/-- What is written for a number are digits of it. -/
theorem digits_groups (n : Nat) : Digits (groups n) n := by
  have hvalue : (UInt8.ofNat (n % 128)).toNat = n % 128 := by
    rw [UInt8.toNat_ofNat']
    omega
  have hlast : UInt8.ofNat (n % 128) < 128 := by
    rw [UInt8.lt_iff_toNat_lt, hvalue]
    exact Nat.mod_lt _ (by decide)
  have hdigits := digits_leadingGroups (n / 128) (.last hlast)
  rwa [hvalue, List.length_singleton, Nat.pow_one, Nat.div_add_mod'] at hdigits

end Element

/-- Digits are those that are written exactly if the first one is not zero. -/
theorem Digits.eq_groups_iff {s : Bytes} {n : Nat} (h : Digits s n) :
    s = Element.groups n ↔ s.head? ≠ some 0x80 := by
  cases h with
  | @last b hb =>
    have hne : b ≠ 0x80 := by
      rintro rfl
      exact absurd hb (by decide)
    refine iff_of_true ?_ (by simpa using hne)
    have hle := (Element.length_groups_le 0 b.toNat).mpr (Digits.last hb).lt
    have hpos := (Element.digits_groups b.toNat).length_pos
    refine (Digits.last hb).inj (Element.digits_groups _) ?_ rfl
    rw [List.length_singleton]
    omega
  | @more b t n hb ht =>
    obtain ⟨k, hk⟩ : ∃ k, t.length = k + 1 := Nat.exists_eq_add_one.mpr ht.length_pos
    have hge : 128 ≤ b.toNat := UInt8.le_iff_toNat_le.mp hb
    -- one digit less is enough exactly if the first one is zero
    have hfewer : (Element.groups ((b.toNat - 128) * 128 ^ t.length + n)).length ≤ t.length ↔
        b = 0x80 := by
      rw [hk, Element.length_groups_le, ← hk, weighted_lt_iff ht.lt, ← UInt8.toNat_inj]
      change b.toNat - 128 = 0 ↔ b.toNat = 128
      omega
    have hle := (Element.length_groups_le t.length _).mpr (Digits.more hb ht).lt
    rw [List.head?_cons, ne_eq, Option.some.injEq, ← hfewer]
    constructor
    · intro heq hshort
      rw [← heq, List.length_cons] at hshort
      omega
    · intro hmore
      refine (Digits.more hb ht).inj (Element.digits_groups _) ?_ rfl
      rw [List.length_cons]
      omega

/-- A first octet is made of its class, its constructed bit and its number. -/
theorem first_octet_eq (first : UInt8) :
    (TagClass.ofOctet first).code * 64 + Element.constructedBit (first &&& 0x20 ≠ 0) + first % 32 =
      first := by
  have h : ∀ i : Fin 256, let first := UInt8.ofFin i
      (TagClass.ofOctet first).code * 64 + Element.constructedBit (first &&& 0x20 ≠ 0) +
        first % 32 = first := by
    decide +kernel
  exact h first.toFin

/-- Identifier octets are those that are written exactly if the number is in the first one where it
can be, and has no leading zero digit. -/
theorem TagOctets.eq_identifier_iff {first : UInt8} {digits : Bytes} {n : Nat}
    (h : TagOctets first digits n) (hn : n < 2 ^ 32) :
    first :: digits =
        Element.identifier (.ofOctet first) (first &&& 0x20 ≠ 0) (.ofNat n) ↔
      (n < 31 → digits = []) ∧ digits.head? ≠ some 0x80 := by
  have hfirst := first_octet_eq first
  have hnumber : (UInt32.ofNat n).toNat = n := by
    rw [UInt32.toNat_ofNat']
    exact Nat.mod_eq_of_lt hn
  have hlow : UInt32.ofNat n < 31 ↔ n < 31 := by
    rw [UInt32.lt_iff_toNat_lt, hnumber]
    rfl
  cases h with
  | low hne =>
    have hlt : first.toNat % 32 < 31 := by
      have hmod : first.toNat % 32 ≠ 31 := fun heq =>
        hne (UInt8.toNat_inj.mp ((UInt8.toNat_mod first 32).trans heq))
      omega
    refine iff_of_true ?_ ⟨fun _ => rfl, (Option.some_ne_none _).symm⟩
    have hback : (UInt32.ofNat (first.toNat % 32)).toUInt8 = first % 32 := by
      apply UInt8.toNat_inj.mp
      rw [UInt32.toNat_toUInt8, hnumber, UInt8.toNat_mod]
      show first.toNat % 32 % 256 = first.toNat % 32
      omega
    rw [Element.identifier, if_pos (hlow.mpr hlt), hback, hfirst]
  | high hmore hd =>
    rw [hmore] at hfirst
    by_cases hsmall : n < 31
    · -- one octet is written, and there are more
      have hpos := hd.length_pos
      refine iff_of_false (fun heq => ?_) ?_
      · have hone := congrArg List.length heq
        rw [Element.length_identifier_of_lt (hlow.mpr hsmall), List.length_cons] at hone
        omega
      · rintro ⟨hnil, -⟩
        rw [hnil hsmall] at hpos
        cases hpos
    · rw [Element.identifier, if_neg (mt hlow.mp hsmall), hfirst, hnumber, List.cons.injEq,
        and_iff_right rfl, hd.eq_groups_iff, and_iff_right fun hlt => absurd hlt hsmall]

/-! ### Lengths -/

/-- A length takes 32 bits. -/
theorem SizeOctets.lt {size : Bytes} {n : Nat} (h : SizeOctets size n) : n < 2 ^ 32 := by
  cases h with
  | @short b hb => exact Nat.lt_trans b.toNat_lt (by decide)
  | long _ _ hle => exact Bytes.bigEndian_lt_of_length_le_four hle

/-- Length octets are those that are written exactly if they are one where they can be, and have no
leading zero. -/
theorem SizeOctets.eq_lengthOctets_iff {size : Bytes} {n : Nat} (h : SizeOctets size n) :
    size = Element.lengthOctets n ↔ (n < 128 → size.length = 1) ∧ size.tail.head? ≠ some 0 := by
  cases h with
  | @short b hb =>
    have hlt : b.toNat < 128 := UInt8.lt_iff_toNat_lt.mp hb
    refine iff_of_true ?_ ⟨fun _ => rfl, (Option.some_ne_none _).symm⟩
    rw [Element.lengthOctets, if_pos hlt, UInt8.ofNat_toNat]
  | @long b s hcount hpos hle =>
    by_cases hsmall : Bytes.bigEndian s < 128
    · -- one octet is written, and there are more
      refine iff_of_false (fun heq => ?_) ?_
      · rw [Element.lengthOctets, if_pos hsmall] at heq
        rw [(List.cons.inj heq).2] at hpos
        cases hpos
      · rintro ⟨hone, -⟩
        have hlength := hone hsmall
        rw [List.length_cons] at hlength
        omega
    · rw [Element.lengthOctets, if_neg hsmall, and_iff_right fun hlt => absurd hlt hsmall,
        List.tail_cons, ← Bytes.eq_ofNat_bigEndian_iff, List.cons.injEq]
      refine and_iff_right_of_imp fun heq => ?_
      rw [← heq, ← hcount, UInt8.ofNat_toNat]

/-! ### Elements -/

namespace Element

/-- The identifier octets that are written are those of the number. -/
theorem tagOctets_identifier (tagClass : TagClass) (constructed : Bool) (number : UInt32) :
    ∃ first digits, identifier tagClass constructed number = first :: digits ∧
      TagOctets first digits number.toNat := by
  by_cases h : number < 31
  · have hlt : number.toNat < 31 := UInt32.lt_iff_toNat_lt.mp h
    obtain ⟨-, -, hmod⟩ := identifier_octet tagClass constructed ⟨number.toNat, by omega⟩
    have hvalue := congrArg UInt8.toNat hmod
    rw [UInt8.toNat_mod, UInt8.toNat_ofNat'] at hvalue
    have hnumber : (tagClass.code * 64 + constructedBit constructed +
        UInt8.ofNat number.toNat).toNat % 32 = number.toNat :=
      hvalue.trans (Nat.mod_eq_of_lt (by omega))
    have hlow : TagOctets (tagClass.code * 64 + constructedBit constructed +
        UInt8.ofNat number.toNat) [] _ := .low fun heq => by
      have hmax := congrArg UInt8.toNat heq
      rw [UInt8.toNat_mod] at hmax
      exact absurd (hnumber.symm.trans hmax) (Nat.ne_of_lt hlt)
    rw [hnumber] at hlow
    exact ⟨_, [], if_pos h, hlow⟩
  · obtain ⟨-, -, hmod⟩ := identifier_octet tagClass constructed ⟨31, by decide⟩
    exact ⟨_, groups number.toNat, if_neg h, .high hmod (digits_groups _)⟩

/-- The length octets that are written are those of the length, if that takes 32 bits. -/
theorem sizeOctets_lengthOctets {n : Nat} (h : n < 2 ^ 32) : SizeOctets (lengthOctets n) n := by
  have hread := readLength_lengthOctets (Nat.lt_trans h (by decide)) []
  rw [if_pos h] at hread
  obtain ⟨size, hsize, heq⟩ := readLength_eq_ok_iff.mp hread
  rwa [← List.append_cancel_right heq]

/-- An element with less than 2^32 octets of content is spelled as it is written. -/
theorem exists_octets_eq_write {e : Element} (h : e.content.length < 2 ^ 32) :
    ∃ p : Spelling, p.octets = e.write ∧ p.element = e ∧ p.number = e.number.toNat := by
  obtain ⟨first, digits, hidentifier, hnumber⟩ :=
    tagOctets_identifier e.tagClass e.constructed e.number
  let p : Spelling := ⟨first, digits, e.number.toNat, lengthOctets e.content.length, e.content,
    hnumber, sizeOctets_lengthOctets h⟩
  have hoctets : p.octets = e.write := by
    rw [write, header, hidentifier, List.append_assoc]
    rfl
  have hread := read_octets p []
  rw [hoctets, read_write e h] at hread
  exact ⟨p, hoctets, (congrArg Prod.fst (Except.ok.inj hread)).symm, rfl⟩

end Element

namespace Spelling

/-- A spelling is distinguished if its tag number is below 2^32, and this and its length take the
fewest octets. -/
structure Distinguished (p : Spelling) : Prop where
  number : p.number < 2 ^ 32
  /-- A number below 31 stands in the first octet; -/
  low : p.number < 31 → p.digits = []
  /-- another one does not begin with a zero digit. -/
  digits : p.digits.head? ≠ some 0x80
  /-- A length below 128 takes one octet; -/
  short : p.content.length < 128 → p.size.length = 1
  /-- another one does not begin with a zero octet. -/
  size : p.size.tail.head? ≠ some 0

instance (p : Spelling) : Decidable p.Distinguished :=
  decidable_of_iff (p.number < 2 ^ 32 ∧ (p.number < 31 → p.digits = []) ∧
      p.digits.head? ≠ some 0x80 ∧ (p.content.length < 128 → p.size.length = 1) ∧
        p.size.tail.head? ≠ some 0)
    ⟨fun ⟨hnumber, hlow, hdigits, hshort, hsize⟩ => ⟨hnumber, hlow, hdigits, hshort, hsize⟩,
      fun h => ⟨h.number, h.low, h.digits, h.short, h.size⟩⟩

theorem length_content_lt (p : Spelling) : p.content.length < 2 ^ 32 := p.spells_length.lt

/-- A spelling that is written has a number of 32 bits. -/
theorem number_lt_of_octets_eq {p : Spelling} (h : p.octets = p.element.write) :
    p.number < 2 ^ 32 := by
  obtain ⟨q, hq, -, hnumber⟩ := Element.exists_octets_eq_write (e := p.element) p.length_content_lt
  rw [← hq] at h
  obtain ⟨rfl, -⟩ := octets_append_inj (congrArg (· ++ []) h)
  rw [hnumber]
  exact UInt32.toNat_lt _

/-- The distinguished spelling of an element is the one that is written for it. -/
theorem octets_eq_write_element_iff {p : Spelling} :
    p.octets = p.element.write ↔ p.Distinguished := by
  have hidentifier (h : p.number < 2 ^ 32) : p.first :: p.digits = _ ↔ _ :=
    p.spells_number.eq_identifier_iff h
  have hsize := p.spells_length.eq_lengthOctets_iff
  have hoctets : p.octets = (p.first :: p.digits) ++ (p.size ++ p.content) := rfl
  have hwrite : p.element.write =
      Element.identifier (.ofOctet p.first) (p.first &&& 0x20 ≠ 0) (.ofNat p.number) ++
        (Element.lengthOctets p.content.length ++ p.content) :=
    List.append_assoc _ _ _
  constructor
  · intro heq
    have hnumber := number_lt_of_octets_eq heq
    -- neither part is written with more octets, so both take as many
    have hfew := Element.length_identifier_le p.spells_number (.ofOctet p.first)
      (p.first &&& 0x20 ≠ 0)
    have hfew' := p.spells_length.length_lengthOctets_le (Nat.le_refl _)
    have hlength := congrArg List.length heq
    rw [hoctets, hwrite] at hlength heq
    simp only [List.length_append, List.length_cons] at hlength
    obtain ⟨hfirst, hlater⟩ := List.append_inj heq (by rw [List.length_cons]; omega)
    obtain ⟨hlow, hdigits⟩ := (hidentifier hnumber).mp hfirst
    obtain ⟨hshort, hlong⟩ := hsize.mp (List.append_cancel_right hlater)
    exact ⟨hnumber, hlow, hdigits, hshort, hlong⟩
  · rintro ⟨hnumber, hlow, hdigits, hshort, hlong⟩
    rw [hoctets, hwrite, (hidentifier hnumber).mpr ⟨hlow, hdigits⟩, ← hsize.mpr ⟨hshort, hlong⟩]

/-- What begins with an element as it is written is read as it. -/
theorem element_eq_of_octets_append_eq {p : Spelling} {e : Element} {r r' : Bytes}
    (he : e.content.length < 2 ^ 64) (h : p.octets ++ r = e.write ++ r') :
    p.element = e ∧ r = r' := by
  have hread := Element.read_octets p r
  rw [h] at hread
  by_cases hlong : e.content.length < 2 ^ 32
  · rw [Element.read_write e hlong] at hread
    exact Prod.mk.inj (Except.ok.inj hread).symm
  · cases (Element.read_write_long e (Nat.le_of_not_lt hlong) he r').symm.trans hread

/-- **The distinguished spelling of an element is the one that is written.** -/
theorem octets_eq_write_iff {p : Spelling} {e : Element} (he : e.content.length < 2 ^ 64) :
    p.octets = e.write ↔ p.element = e ∧ p.Distinguished := by
  constructor
  · intro h
    obtain ⟨rfl, -⟩ := element_eq_of_octets_append_eq he (congrArg (· ++ []) h)
    exact ⟨rfl, octets_eq_write_element_iff.mp h⟩
  · rintro ⟨rfl, hdistinguished⟩
    exact octets_eq_write_element_iff.mpr hdistinguished

/-- What begins both with a spelling and with an element as it is written begins with the same
octets. -/
theorem octets_append_eq_iff {p : Spelling} {e : Element} {r r' : Bytes}
    (he : e.content.length < 2 ^ 64) :
    p.octets ++ r = e.write ++ r' ↔ p.octets = e.write ∧ r = r' := by
  constructor
  · intro h
    obtain ⟨-, rfl⟩ := element_eq_of_octets_append_eq he h
    exact ⟨List.append_cancel_right h, rfl⟩
  · rintro ⟨hwrite, rfl⟩
    rw [hwrite]

/-- **Elements written one after another** are as many spellings that are written. -/
theorem flatMap_octets_append_eq_iff {ps : List Spelling} {es : List Element} {r r' : Bytes}
    (hes : ∀ e ∈ es, e.content.length < 2 ^ 64) (hlength : ps.length = es.length) :
    ps.flatMap octets ++ r = es.flatMap Element.write ++ r' ↔
      List.Forall₂ (fun p e => p.octets = e.write) ps es ∧ r = r' := by
  induction ps generalizing es with
  | nil =>
    obtain rfl := List.length_eq_zero_iff.mp hlength.symm
    simp
  | cons p ps ih =>
    obtain ⟨e, es, rfl⟩ := List.exists_cons_of_length_eq_add_one hlength.symm
    obtain ⟨he, hes⟩ := List.forall_mem_cons.mp hes
    rw [List.flatMap_cons, List.flatMap_cons, List.append_assoc, List.append_assoc,
      octets_append_eq_iff he, ih hes (Nat.succ.inj hlength), List.forall₂_cons, and_assoc]

/-- Spellings one after another that are elements as they are written are spellings of these. -/
theorem map_element_of_flatMap_octets_eq {ps : List Spelling} {es : List Element}
    (hes : ∀ e ∈ es, e.content.length < 2 ^ 32)
    (h : ps.flatMap octets = es.flatMap Element.write) : ps.map element = es := by
  have hscan : Element.scan (ps.flatMap octets) = (ps.map element, none) :=
    Element.scan_eq_iff.mpr ⟨ps, rfl, rfl⟩
  rw [h, Element.scan_flatMap_write hes] at hscan
  exact (congrArg Prod.fst hscan).symm

/-- No octets are no spellings. -/
theorem eq_nil_of_flatMap_octets_eq {ps : List Spelling} (h : ps.flatMap octets = []) : ps = [] :=
  List.map_eq_nil_iff.mp (map_element_of_flatMap_octets_eq (List.forall_mem_nil _) h)

end Spelling

/-! ### Integers -/

namespace Integer

/-- Octets of the same number in two's complement that are as many are the same. -/
theorem signed_inj {s t : Bytes} (hlength : s.length = t.length) (h : signed s = signed t) :
    s = t := by
  refine Bytes.bigEndian_inj hlength ?_
  have hs := Bytes.bigEndian_lt s
  have ht := Bytes.bigEndian_lt t
  cases s with
  | nil => rw [List.length_eq_zero_iff.mp hlength.symm]
  | cons b s =>
    obtain ⟨c, t, rfl⟩ := List.exists_cons_of_length_eq_add_one hlength.symm
    have hweight : (256 : Int) ^ (t.length + 1) = ((256 ^ (t.length + 1) : Nat) : Int) := by
      rw [Int.natCast_pow]
      rfl
    rw [hlength, List.length_cons] at hs
    rw [List.length_cons] at ht
    rw [signed, signed, Nat.succ.inj hlength, hweight] at h
    -- both values are below the weight, so they cannot differ by it
    split at h <;> split at h <;> omega

/-- **Octets without a redundant one are those that are written** for their number. -/
theorem eq_content_iff {s : Bytes} {n : Int64} (hpos : 1 ≤ s.length) (h : n.toInt = signed s) :
    s = content n ↔ Irredundant s := by
  constructor
  · rintro rfl
    exact irredundant_dropRedundant _
  · intro hirredundant
    obtain ⟨⟨hpos', -⟩, hvalue⟩ := content_signed n
    obtain ⟨k, hk⟩ : ∃ k, (content n).length = k + 1 := Nat.exists_eq_add_one.mpr hpos'
    have hfits := length_content_le_iff.mp (Nat.le_of_eq hk)
    rw [h] at hfits
    have hle := length_le_of_fits hirredundant hfits
    have hge := length_content_le h hpos
    exact signed_inj (by omega) (h.symm.trans hvalue)

end Integer

end Der

end DeviceAttest
