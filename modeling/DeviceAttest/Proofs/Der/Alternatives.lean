import DeviceAttest.Proofs.Der.Distinguished

/-!
# Other spellings of an element

An element is read as it was written, and no fewer octets are read as it.  Other octets may be read
as it, too, and some of them are as many: tag numbers count modulo 2^32, and five digits hold 35
bits, so the digits of a number may stand for one that is greater by 2^32.  Four digits leave no
room for that, so the written octets are the only ones of their length exactly below 2^28
(`Element.read_write_shortest`).

Digits are written with the first one in front and found with the last one in front, by division in
rounds (`Element.takeDigits?`); a tag number takes five of them at most.
-/

namespace DeviceAttest.Der

/-! ### Lengths -/

/-- Length octets of the same length that are as many are the same. -/
theorem SizeOctets.inj {s t : Bytes} {n : Nat} (h : SizeOctets s n) (h' : SizeOctets t n)
    (hlength : s.length = t.length) : s = t := by
  cases h with
  | @short b hb =>
    generalize hn : b.toNat = n at h'
    cases h' with
    | short => rw [UInt8.toNat_inj.mp hn]
    | long _ hpos =>
      simp only [List.length_cons, List.length_nil] at hlength
      omega
  | @long b s hcount hpos hle =>
    generalize hn : Bytes.bigEndian s = n at h'
    cases h' with
    | short =>
      simp only [List.length_cons, List.length_nil] at hlength
      omega
    | long hcount' =>
      have hlater := Nat.succ.inj hlength
      have hfirst := hcount.trans ((congrArg (128 + ·) hlater).trans hcount'.symm)
      rw [UInt8.toNat_inj.mp hfirst, Bytes.bigEndian_inj hlater hn]

/-! ### Tag numbers -/

namespace Element

/-- Takes the base-128 digits off a number, the last one first, until nothing is left of it.  Each
round takes one digit, and none are given if there are not rounds enough. -/
def takeDigits? : Nat → Nat → Option (List Nat)
  | 0, _          => none
  | rounds + 1, n =>
    if n / 128 = 0 then some [n % 128]
    else (takeDigits? rounds (n / 128)).map (n % 128 :: ·)

/-- The digits of written groups, the last one first. -/
def digitsOf (s : Bytes) : List Nat := s.reverse.map fun b => b.toNat % 128

theorem digitsOf_concat {s : Bytes} {b : UInt8} {d : Nat} (h : b.toNat % 128 = d) :
    digitsOf (s ++ [b]) = d :: digitsOf s := by
  rw [digitsOf, List.reverse_append, List.reverse_singleton, List.singleton_append,
    List.map_cons, h]
  rfl

theorem takeDigits?_leadingGroups {rounds n : Nat} (hpos : n ≠ 0) (h : n < 128 ^ rounds) :
    takeDigits? rounds n = some (digitsOf (leadingGroups n)) := by
  induction rounds generalizing n with
  | zero => exact absurd (Nat.lt_one_iff.mp h) hpos
  | succ rounds ih =>
    have hdigit : (UInt8.ofNat (128 + n % 128)).toNat % 128 = n % 128 := by
      rw [UInt8.toNat_ofNat']
      omega
    rw [takeDigits?, leadingGroups, if_neg hpos, digitsOf_concat hdigit]
    by_cases hlast : n / 128 = 0
    · rw [if_pos hlast, hlast, leadingGroups]
      rfl
    · have hlater : n / 128 < 128 ^ rounds :=
        (Nat.div_lt_iff_lt_mul (by decide)).mpr (Nat.pow_succ .. ▸ h)
      rw [if_neg hlast, ih hlast hlater]
      rfl

/-- As many rounds as a number has digits are enough for them. -/
theorem takeDigits?_groups {rounds n : Nat} (h : n < 128 ^ (rounds + 1)) :
    takeDigits? (rounds + 1) n = some (digitsOf (groups n)) := by
  have hdigit : (UInt8.ofNat (n % 128)).toNat % 128 = n % 128 := by
    rw [UInt8.toNat_ofNat']
    omega
  rw [takeDigits?, groups, digitsOf_concat hdigit]
  by_cases hlast : n / 128 = 0
  · rw [if_pos hlast, hlast, leadingGroups]
    rfl
  · have hlater : n / 128 < 128 ^ rounds :=
      (Nat.div_lt_iff_lt_mul (by decide)).mpr (Nat.pow_succ .. ▸ h)
    rw [if_neg hlast, takeDigits?_leadingGroups hlast hlater]
    rfl

/-- **The digits of a tag number are taken off in five rounds** at most. -/
theorem takeDigits?_five (number : UInt32) :
    takeDigits? 5 number.toNat = some (digitsOf (groups number.toNat)) :=
  takeDigits?_groups (Nat.lt_trans number.toNat_lt (by decide))

end Element

/-- Five digits are enough for a number of 28 bits or more and for the one that is greater by
2^32. -/
theorem Element.length_groups_add {n : Nat} (hge : 2 ^ 28 ≤ n) (hlt : n < 2 ^ 32) :
    (groups n).length = 5 ∧ (groups (n + 2 ^ 32)).length = 5 := by
  have five {m : Nat} (hge : 2 ^ 28 ≤ m) (hlt : m < 2 ^ 35) : (groups m).length = 5 := by
    have hle : (groups m).length ≤ 5 := (length_groups_le 4 m).mpr hlt
    have hmore : ¬ (groups m).length ≤ 4 := fun h =>
      absurd ((length_groups_le 3 m).mp h) (Nat.not_lt_of_le hge)
    omega
  exact ⟨five hge (by omega), five (by omega) (by omega)⟩

/-- **Identifier octets of a tag number below 2^28 are those that are written** if no fewer are:
they are so few that their number is the tag number itself. -/
theorem TagOctets.written_of_length_le {first : UInt8} {digits : Bytes} {n : Nat}
    (h : TagOctets first digits n) (tagClass : TagClass) (constructed : Bool)
    (hsmall : n % 2 ^ 32 < 2 ^ 28)
    (hle : digits.length + 1 ≤ (Element.identifier tagClass constructed (.ofNat n)).length) :
    n < 2 ^ 32 ∧ (n < 31 → digits = []) ∧ digits.head? ≠ some 0x80 := by
  have hnumber : (UInt32.ofNat n).toNat = n % 2 ^ 32 := UInt32.toNat_ofNat'
  have hge := Element.length_identifier_le h tagClass constructed
  cases h with
  | low => exact ⟨by omega, fun _ => rfl, (Option.some_ne_none _).symm⟩
  | high _ hd =>
    have hpos := hd.length_pos
    by_cases hlow : UInt32.ofNat n < 31
    · rw [Element.length_identifier_of_lt hlow] at hle
      omega
    · have hlow' : 31 ≤ (UInt32.ofNat n).toNat :=
        UInt32.le_iff_toNat_le.mp (UInt32.not_lt.mp hlow)
      rw [Element.identifier, if_neg hlow, List.length_cons, hnumber] at hle hge
      have hfour : (Element.groups (n % 2 ^ 32)).length ≤ 4 :=
        (Element.length_groups_le 3 _).mpr hsmall
      have hpow : 128 ^ digits.length ≤ 128 ^ 4 :=
        Nat.pow_le_pow_right (by decide) (by omega)
      have hlt := hd.lt
      have hmod : n % 2 ^ 32 = n := Nat.mod_eq_of_lt (by omega)
      rw [hmod] at hle hge
      have hgroups := hd.inj (Element.digits_groups n) (by omega) rfl
      exact ⟨by omega, fun hn => by omega, hd.eq_groups_iff.mp hgroups⟩

namespace Spelling

/-! ### Elements -/

/-- **A spelling of a tag number below 2^28 is distinguished** if no shorter octets are written for
its element. -/
theorem distinguished_of_length_le {p : Spelling} (htag : p.tag.toNat < 2 ^ 28)
    (h : p.octets.length ≤ p.element.write.length) : p.Distinguished := by
  -- neither part is written with more octets, so both take as many
  have hidentifier := Element.length_identifier_le p.spells_number p.tagClass p.constructed
  have hsize := p.spells_length.length_lengthOctets_le (Nat.le_refl _)
  have hlength : p.element.write.length =
      (Element.identifier p.tagClass p.constructed (.ofNat p.number)).length +
        (Element.lengthOctets p.content.length).length + p.content.length :=
    Element.length_write _
  rw [hlength, octets] at h
  simp only [List.length_cons, List.length_append] at h
  have hwritten : p.size = Element.lengthOctets p.content.length :=
    p.spells_length.inj (Element.sizeOctets_lengthOctets p.length_content_lt) (by omega)
  obtain ⟨hnumber, hlow, hdigits⟩ := p.spells_number.written_of_length_le p.tagClass
    p.constructed (p.toNat_tag ▸ htag) (by omega)
  obtain ⟨hshort, hlong⟩ := p.spells_length.eq_lengthOctets_iff.mp hwritten
  exact ⟨hnumber, hlow, hdigits, hshort, hlong⟩

/-- Digits of a number are part of a spelling of any element with that tag number modulo 2^32. -/
theorem exists_of_digits {e : Element} (h : e.content.length < 2 ^ 32) {digits : Bytes} {n : Nat}
    (hdigits : Digits digits n) (hnumber : n % 2 ^ 32 = e.number.toNat) :
    ∃ p : Spelling, p.element = e ∧ p.number = n ∧ p.octets.length =
      digits.length + 1 + (Element.lengthOctets e.content.length).length + e.content.length := by
  obtain ⟨hclass, hbit, hmore⟩ := Element.identifier_octet e.tagClass e.constructed ⟨31, by decide⟩
  refine ⟨⟨_, digits, n, Element.lengthOctets e.content.length, e.content, .high hmore hdigits,
    Element.sizeOctets_lengthOctets h⟩, ?_, rfl, ?_⟩
  · obtain ⟨tagClass, constructed, number, content⟩ := e
    have htag : UInt32.ofNat n = number := UInt32.toNat_inj.mp (UInt32.toNat_ofNat'.trans hnumber)
    exact Element.mk.injEq .. |>.mpr ⟨hclass, hbit, htag, rfl⟩
  · simp only [octets, List.length_cons, List.length_append]
    omega

/-- **From 2^28 on other octets are as many**: the digits may spell 2^32 more. -/
theorem exists_octets_ne_write {e : Element} (hnumber : 2 ^ 28 ≤ e.number.toNat)
    (h : e.content.length < 2 ^ 32) :
    ∃ p : Spelling, p.element = e ∧ p.octets.length = e.write.length ∧ p.octets ≠ e.write := by
  have hlt := e.number.toNat_lt
  have hmod : (e.number.toNat + 2 ^ 32) % 2 ^ 32 = e.number.toNat := by omega
  obtain ⟨hfive, hfive'⟩ := Element.length_groups_add hnumber hlt
  obtain ⟨p, helement, hspelled, hlength⟩ := exists_of_digits h (Element.digits_groups _) hmod
  have hhigh : ¬ e.number < 31 := fun hlow => by
    have hlow' : e.number.toNat < 31 := UInt32.lt_iff_toNat_lt.mp hlow
    omega
  refine ⟨p, helement, ?_, fun heq => ?_⟩
  · rw [hlength, hfive', Element.length_write, Element.identifier, if_neg hhigh, List.length_cons,
      hfive]
  · -- what is written spells the number itself
    have hsmall := number_lt_of_octets_eq (p := p) (helement.symm ▸ heq)
    omega

end Spelling

namespace Element

/-- Octets are read as an element, and to their end, exactly if they are a spelling of it. -/
theorem read_append_eq_ok_iff {s rest : Bytes} {e : Element} :
    read (s ++ rest) = .ok (e, rest) ↔ ∃ p : Spelling, p.octets = s ∧ p.element = e := by
  rw [read_eq_ok_iff]
  exact exists_congr fun p => and_congr_left fun _ => List.append_left_inj rest

/-- **Elements are read as they were written, and written in the fewest octets.**  With less than
2^32 octets of content, an element is read back off the front of whatever follows it.  No fewer
octets are read as it, and no others that are as many exactly if its tag number is below 2^28.  The
digits of a tag number are taken off in five rounds. -/
theorem read_write_shortest (e : Element) (h : e.content.length < 2 ^ 32) :
    (∀ rest, read (e.write ++ rest) = .ok (e, rest)) ∧
      (∀ s rest, read (s ++ rest) = .ok (e, rest) → e.write.length ≤ s.length) ∧
      ((∀ s rest, read (s ++ rest) = .ok (e, rest) → s.length = e.write.length → s = e.write) ↔
        e.number.toNat < 2 ^ 28) ∧
      takeDigits? 5 e.number.toNat = some (digitsOf (groups e.number.toNat)) := by
  refine ⟨read_write e h, fun s rest hread => ?_, ⟨fun honly => ?_, ?_⟩,
    takeDigits?_five e.number⟩
  · obtain ⟨p, rfl, rfl⟩ := read_append_eq_ok_iff.mp hread
    exact Spelling.length_write_le rfl (Nat.le_refl _)
  · by_contra hge
    obtain ⟨p, helement, hlength, hne⟩ :=
      Spelling.exists_octets_ne_write (Nat.le_of_not_lt hge) h
    exact hne (honly p.octets [] (read_append_eq_ok_iff.mpr ⟨p, rfl, helement⟩) hlength)
  · intro hsmall s rest hread hlength
    obtain ⟨p, rfl, rfl⟩ := read_append_eq_ok_iff.mp hread
    exact Spelling.octets_eq_write_element_iff.mpr
      (Spelling.distinguished_of_length_le hsmall (Nat.le_of_eq hlength))

/-- An attested brand, with an octet after it. -/
theorem read_write_shortest_brand :
    let e : Element := ⟨.contextSpecific, true, 710, [0x04, 0x02, 0x68, 0x69]⟩
    e.content.length < 2 ^ 32 ∧ read (e.write ++ [0x05]) = .ok (e, [0x05]) ∧
      ∀ s rest, read (s ++ rest) = .ok (e, rest) → s.length = e.write.length → s = e.write := by
  intro e
  have hshort : e.content.length < 2 ^ 32 := by decide
  obtain ⟨hread, -, honly, -⟩ := read_write_shortest e hshort
  exact ⟨hshort, hread [0x05], honly.mpr (by decide)⟩

end Element

end DeviceAttest.Der
