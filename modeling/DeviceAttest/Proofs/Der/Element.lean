import DeviceAttest.Der.Element
import Mathlib.Algebra.Group.Nat.Defs
import Mathlib.Data.List.Basic

/-!
# Elements are read as they were written

* `read_write`: an element with less than 2^32 octets of content is read back off the front of
  whatever follows it;
* `read_write_long`: with more, up to 2^64, its length is refused;
* `scan_flatMap_write`: elements written one after another are found again by a scan.
-/

namespace DeviceAttest

/-! ### Octets of a number -/

/-- A number that is written digit after digit, zero without any, has at most `k` digits if it is
below the power `k` of the base. -/
theorem Bytes.length_digits_le {base : Nat} (hbase : 0 < base) {digits : Nat → Bytes}
    {digit : Nat → UInt8}
    (h : ∀ n, digits n = if n = 0 then [] else digits (n / base) ++ [digit n]) (k n : Nat) :
    (digits n).length ≤ k ↔ n < base ^ k := by
  induction k generalizing n with
  | zero =>
    rw [h]
    by_cases hn : n = 0
    · simp [hn]
    · simp [hn]
  | succ k ih =>
    rw [h]
    by_cases hn : n = 0
    · exact iff_of_true (by simp [hn]) (hn ▸ Nat.pow_pos hbase)
    · rw [if_neg hn, List.length_append, List.length_singleton, Nat.add_le_add_iff_right, ih,
        Nat.div_lt_iff_lt_mul hbase, Nat.pow_succ]

theorem Bytes.length_ofNat_le (k n : Nat) : (Bytes.ofNat n).length ≤ k ↔ n < 256 ^ k :=
  length_digits_le (by decide) (fun n => by rw [ofNat]) k n

namespace Der.Element

/-! ### Tag numbers -/

/-- Shifting a base-128 digit into a number that is kept modulo 2^32. -/
theorem shift_group (n : Nat) :
    UInt32.ofNat (n / 128) * 128 + (UInt8.ofNat (128 + n % 128) % 128).toUInt32 =
      UInt32.ofNat n := by
  apply UInt32.toNat_inj.mp
  simp [UInt32.toNat_add, UInt32.toNat_mul]
  omega

theorem shift_last_group (n : Nat) :
    UInt32.ofNat (n / 128) * 128 + (UInt8.ofNat (n % 128) % 128).toUInt32 = UInt32.ofNat n := by
  apply UInt32.toNat_inj.mp
  simp [UInt32.toNat_add, UInt32.toNat_mul]
  omega

theorem readGroups_leadingGroups (n : Nat) (s : Bytes) :
    readGroups 0 (leadingGroups n ++ s) = readGroups (UInt32.ofNat n) s := by
  fun_induction leadingGroups n generalizing s with
  | case1 => rfl
  | case2 n hn ih =>
    have hmarked : ¬ UInt8.ofNat (128 + n % 128) < 128 := by
      rw [UInt8.lt_iff_toNat_lt, UInt8.toNat_ofNat']
      show ¬ (128 + n % 128) % 256 < 128
      omega
    rw [List.append_assoc, ih]
    show readGroups _ (_ :: s) = _
    rw [readGroups]
    simp only [if_neg hmarked]
    rw [shift_group]

/-- The digits of a tag number are read back. -/
theorem readGroups_groups (number : UInt32) (s : Bytes) :
    readGroups 0 (groups number.toNat ++ s) = .ok (number, s) := by
  have hlast : UInt8.ofNat (number.toNat % 128) < 128 := by
    rw [UInt8.lt_iff_toNat_lt, UInt8.toNat_ofNat']
    show (number.toNat % 128) % 256 < 128
    omega
  rw [groups, List.append_assoc, readGroups_leadingGroups]
  show readGroups _ (_ :: s) = _
  rw [readGroups]
  simp only [if_pos hlast]
  rw [shift_last_group, UInt32.ofNat_toNat]

/-! ### Identifier octets -/

/-- The parts of a first identifier octet can be told from it. -/
theorem identifier_octet (tagClass : TagClass) (constructed : Bool) (low : Fin 32) :
    let first := tagClass.code * 64 + constructedBit constructed + UInt8.ofNat low.val
    TagClass.ofOctet first = tagClass ∧ decide (first &&& 0x20 ≠ 0) = constructed ∧
      first % 32 = UInt8.ofNat low.val := by
  -- four classes, one bit and five bits of number: few enough to try
  revert low
  cases tagClass <;> cases constructed <;> decide

/-- The identifier octets of an element are a first octet, which tells class and constructed bit,
and what the tag number takes after it. -/
theorem identifier_eq_cons (tagClass : TagClass) (constructed : Bool) (number : UInt32) :
    ∃ first more, identifier tagClass constructed number = first :: more ∧
      TagClass.ofOctet first = tagClass ∧ decide (first &&& 0x20 ≠ 0) = constructed ∧
      ∀ s, readNumber first (more ++ s) = .ok (number, s) := by
  unfold identifier
  by_cases h : number < 31
  · rw [if_pos h]
    have hlt : number.toNat < 31 := UInt32.lt_iff_toNat_lt.mp h
    have hlow : number.toUInt8 = UInt8.ofNat number.toNat := rfl
    obtain ⟨hclass, hbit, hmod⟩ :=
      identifier_octet tagClass constructed ⟨number.toNat, by omega⟩
    refine ⟨_, [], rfl, hclass, hbit, fun s => ?_⟩
    have hnot : ¬ UInt8.ofNat number.toNat = 31 := fun heq => by
      have hval := congrArg UInt8.toNat heq
      rw [UInt8.toNat_ofNat'] at hval
      change number.toNat % 256 = 31 at hval
      omega
    have hback : (UInt8.ofNat number.toNat).toUInt32 = number := by
      apply UInt32.toNat_inj.mp
      rw [UInt8.toNat_toUInt32, UInt8.toNat_ofNat']
      exact Nat.mod_eq_of_lt (by omega)
    have hread : readNumber _ ([] ++ s) = .ok (_, s) := if_neg (hmod.symm ▸ hnot)
    rw [hlow, hread, hmod, hback]
  · rw [if_neg h]
    obtain ⟨hclass, hbit, hmod⟩ := identifier_octet tagClass constructed ⟨31, by decide⟩
    refine ⟨_, groups number.toNat, rfl, hclass, hbit, fun s => ?_⟩
    exact (if_pos hmod).trans (readGroups_groups number s)

/-! ### Lengths -/

/-- The length octets of a content are read back, if there are at most four of them; eight at most
are refused. -/
theorem readLength_lengthOctets {n : Nat} (h : n < 2 ^ 64) (s : Bytes) :
    readLength (lengthOctets n ++ s) = if n < 2 ^ 32 then .ok (n, s) else .error .badLength := by
  unfold lengthOctets
  by_cases hshort : n < 128
  · rw [if_pos hshort, if_pos (by omega)]
    have hval : (UInt8.ofNat n).toNat = n := by
      rw [UInt8.toNat_ofNat']
      exact Nat.mod_eq_of_lt (by omega)
    have hlt : UInt8.ofNat n < 128 := by
      rw [UInt8.lt_iff_toNat_lt, hval]
      exact hshort
    show readLength (UInt8.ofNat n :: s) = _
    rw [readLength, if_pos hlt, hval]
  · rw [if_neg hshort]
    -- four octets hold what is below 2^32 and no more, eight whatever is below 2^64
    have height : (Bytes.ofNat n).length ≤ 8 := (Bytes.length_ofNat_le 8 n).mpr h
    have hfour : (Bytes.ofNat n).length ≤ 4 ↔ n < 2 ^ 32 := Bytes.length_ofNat_le 4 n
    have hzero : ¬ (Bytes.ofNat n).length ≤ 0 := fun hle => by
      have hn : n < 1 := (Bytes.length_ofNat_le 0 n).mp hle
      omega
    have hval : (UInt8.ofNat (128 + (Bytes.ofNat n).length)).toNat =
        128 + (Bytes.ofNat n).length := by
      rw [UInt8.toNat_ofNat']
      exact Nat.mod_eq_of_lt (by omega)
    have hlt : ¬ UInt8.ofNat (128 + (Bytes.ofNat n).length) < 128 := by
      rw [UInt8.lt_iff_toNat_lt, hval]
      show ¬ 128 + (Bytes.ofNat n).length < 128
      omega
    show readLength (UInt8.ofNat (128 + (Bytes.ofNat n).length) :: (Bytes.ofNat n ++ s)) = _
    rw [readLength, if_neg hlt, hval, Nat.add_sub_cancel_left]
    by_cases hlong : n < 2 ^ 32
    · have hok : ¬ ((Bytes.ofNat n).length = 0 ∨ 4 < (Bytes.ofNat n).length ∨
          (Bytes.ofNat n ++ s).length < (Bytes.ofNat n).length) := by
        have := hfour.mpr hlong
        rw [List.length_append]
        omega
      rw [if_pos hlong, if_neg hok, List.take_left, List.drop_left, Bytes.bigEndian_ofNat]
    · have hbad : 4 < (Bytes.ofNat n).length := Nat.lt_of_not_le (mt hfour.mp hlong)
      rw [if_neg hlong, if_pos (.inr (.inl hbad))]

/-! ### Elements -/

theorem lengthOctets_ne_nil (n : Nat) : lengthOctets n ≠ [] := by
  unfold lengthOctets
  by_cases h : n < 128
  · rw [if_pos h]
    exact List.cons_ne_nil _ _
  · rw [if_neg h]
    exact List.cons_ne_nil _ _

/-- What reading does with the octets of an element: only its length may be refused. -/
theorem read_header (e : Element) (h : e.content.length < 2 ^ 64) (s : Bytes) :
    read (e.header ++ s) =
      if e.content.length < 2 ^ 32 then
        if s.length < e.content.length then .error .truncatedContent
        else .ok (⟨e.tagClass, e.constructed, e.number, s.take e.content.length⟩,
          s.drop e.content.length)
      else .error .badLength := by
  obtain ⟨first, more, hid, hclass, hbit, hnumber⟩ :=
    identifier_eq_cons e.tagClass e.constructed e.number
  have hrest : more ++ (lengthOctets e.content.length ++ s) ≠ [] := by
    simp [lengthOctets_ne_nil]
  rw [header, hid, List.append_assoc, List.cons_append]
  obtain ⟨second, later, hcons⟩ := List.exists_cons_of_ne_nil hrest
  rw [hcons, read, ← hcons, hnumber]
  simp only [bind, Except.bind, readLength_lengthOctets h]
  by_cases hlong : e.content.length < 2 ^ 32
  · simp only [if_pos hlong, hclass, hbit]
  · simp only [if_neg hlong]

/-- **An element is read as it was written**, off the front of whatever follows. -/
theorem read_write (e : Element) (h : e.content.length < 2 ^ 32) (s : Bytes) :
    read (e.write ++ s) = .ok (e, s) := by
  have hfits : ¬ (e.content ++ s).length < e.content.length := by
    rw [List.length_append]
    omega
  rw [write, List.append_assoc, read_header e (by omega), if_pos h, if_neg hfits, List.take_left,
    List.drop_left]

/-- An element of 2^32 octets or more is not read: its length is written in more than four. -/
theorem read_write_long (e : Element) (hlong : 2 ^ 32 ≤ e.content.length)
    (h : e.content.length < 2 ^ 64) (s : Bytes) :
    read (e.write ++ s) = .error .badLength := by
  rw [write, List.append_assoc, read_header e h, if_neg (Nat.not_lt_of_le hlong)]

/-! ### Scans -/

theorem scan_of_read {s rest : Bytes} {e : Element} (h : read s = .ok (e, rest)) :
    scan s = (e :: (scan rest).1, (scan rest).2) := by
  have hne : s ≠ [] := fun hnil => by
    rw [hnil] at h
    cases h
  rw [scan, if_neg hne]
  split
  · rename_i failure hfailed
    cases h.symm.trans hfailed
  · rename_i e' rest' hread
    cases h.symm.trans hread
    rfl

/-- The content of an element is no longer than all the octets it is written among. -/
theorem length_content_le {e : Element} {es : List Element} (he : e ∈ es) :
    e.content.length ≤ (es.flatMap write).length := by
  obtain ⟨front, back, rfl⟩ := List.append_of_mem he
  rw [List.flatMap_append, List.flatMap_cons, write]
  simp only [List.length_append]
  omega

/-- **A scan finds the elements that were written one after another**, and nothing else. -/
theorem scan_flatMap_write {es : List Element} (h : ∀ e ∈ es, e.content.length < 2 ^ 32) :
    scan (es.flatMap write) = (es, none) := by
  induction es with
  | nil =>
    rw [List.flatMap_nil, scan]
    exact if_pos rfl
  | cons e es ih =>
    rw [List.flatMap_cons, scan_of_read (read_write e (h e List.mem_cons_self) _),
      ih fun x hx => h x (List.mem_cons_of_mem e hx)]

end Der.Element

end DeviceAttest
