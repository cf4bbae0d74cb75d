import DeviceAttest.Der.Element
import Mathlib.Algebra.Group.Nat.Defs
import Mathlib.Data.List.Basic

/-!
# Spellings of elements

The grammar of elements, apart from any reader.  A `Spelling` is a first octet, the base-128 digits
of a high tag number, length octets and a content of that length; it may be longer than need be, and
the number in its digits has no bound.

A byte string begins with one spelling at most (`octets_append_inj`).  A reader takes exactly a
spelling off the front of a byte string, and gives its element with the number modulo 2^32
(`read_eq_ok_iff`).  A scan comes to its end exactly where the octets are
spellings one after another (`scan_eq_iff`).
-/

namespace DeviceAttest.Der

/-! ### The grammar -/

/-- Base-128 digits of a number, most significant first; all but the last one are marked by the
high bit. -/
inductive Digits : Bytes → Nat → Prop where
  | last {b : UInt8} (h : b < 128) : Digits [b] b.toNat
  | more {b : UInt8} {s : Bytes} {n : Nat} (h : 128 ≤ b) (hs : Digits s n) :
      Digits (b :: s) ((b.toNat - 128) * 128 ^ s.length + n)

/-- The identifier octets after the first one, and the tag number of all of them: the first octet
holds a number below 31, or 31 where digits follow. -/
inductive TagOctets (first : UInt8) : Bytes → Nat → Prop where
  | low (h : first % 32 ≠ 31) : TagOctets first [] (first.toNat % 32)
  | high (h : first % 32 = 31) {digits : Bytes} {n : Nat} (hd : Digits digits n) :
      TagOctets first digits n

/-- The octets of a length: itself below 128, or the count of one to four octets and these. -/
inductive SizeOctets : Bytes → Nat → Prop where
  | short {b : UInt8} (h : b < 128) : SizeOctets [b] b.toNat
  | long {b : UInt8} {s : Bytes} (h : b.toNat = 128 + s.length) (hpos : 1 ≤ s.length)
      (hle : s.length ≤ 4) : SizeOctets (b :: s) (Bytes.bigEndian s)

theorem SizeOctets.one_le_length {size : Bytes} {n : Nat} (h : SizeOctets size n) :
    1 ≤ size.length := by
  cases h with
  | short => exact Nat.le_refl _
  | long => exact Nat.le_add_left _ _

/-- An element as it may stand in a byte string. -/
structure Spelling where
  /-- The first identifier octet. -/
  first : UInt8
  /-- The other identifier octets. -/
  digits : Bytes
  /-- The tag number that the identifier octets spell. -/
  number : Nat
  /-- The length octets. -/
  size : Bytes
  content : Bytes
  spells_number : TagOctets first digits number
  spells_length : SizeOctets size content.length

namespace Spelling

/-- All octets of an element. -/
def octets (p : Spelling) : Bytes := p.first :: (p.digits ++ (p.size ++ p.content))

/-- The class in the first octet. -/
def tagClass (p : Spelling) : TagClass := .ofOctet p.first

/-- The constructed bit of the first octet. -/
def constructed (p : Spelling) : Bool := p.first &&& 0x20 ≠ 0

/-- The tag number modulo 2^32. -/
def tag (p : Spelling) : UInt32 := .ofNat p.number

/-- The element that is spelled. -/
def element (p : Spelling) : Element := ⟨p.tagClass, p.constructed, p.tag, p.content⟩

theorem toNat_tag (p : Spelling) : p.tag.toNat = p.number % 2 ^ 32 := UInt32.toNat_ofNat'

/-- An element takes at least two octets beside its content. -/
theorem length_octets (p : Spelling) : p.content.length + 2 ≤ p.octets.length := by
  have hsize := p.spells_length.one_le_length
  simp only [octets, List.length_cons, List.length_append]
  omega

end Spelling

/-! ### Spellings are told apart -/

/-- Digits end where their last one stands, whatever follows them. -/
theorem Digits.append_inj {s s' r r' : Bytes} {n n' : Nat} (h : Digits s n) (h' : Digits s' n')
    (heq : s ++ r = s' ++ r') : s = s' ∧ n = n' ∧ r = r' := by
  induction h generalizing s' n' with
  | last hlt =>
    cases h' with
    | last =>
      obtain ⟨rfl, rfl⟩ := List.cons.inj heq
      exact ⟨rfl, rfl, rfl⟩
    | more hge =>
      obtain ⟨rfl, -⟩ := List.cons.inj heq
      exact absurd hlt (UInt8.not_lt.mpr hge)
  | more hge _ ih =>
    cases h' with
    | last hlt =>
      obtain ⟨rfl, -⟩ := List.cons.inj heq
      exact absurd hlt (UInt8.not_lt.mpr hge)
    | more _ hs =>
      obtain ⟨rfl, htail⟩ := List.cons.inj heq
      obtain ⟨rfl, rfl, rfl⟩ := ih hs htail
      exact ⟨rfl, rfl, rfl⟩

theorem TagOctets.append_inj {first : UInt8} {s s' r r' : Bytes} {n n' : Nat}
    (h : TagOctets first s n) (h' : TagOctets first s' n') (heq : s ++ r = s' ++ r') :
    s = s' ∧ n = n' ∧ r = r' := by
  cases h with
  | low hne =>
    cases h' with
    | low => exact ⟨rfl, rfl, heq⟩
    | high hmore => exact absurd hmore hne
  | high hmore hd =>
    cases h' with
    | low hne => exact absurd hmore hne
    | high _ hd' => exact hd.append_inj hd' heq

theorem SizeOctets.append_inj {s s' r r' : Bytes} {n n' : Nat} (h : SizeOctets s n)
    (h' : SizeOctets s' n') (heq : s ++ r = s' ++ r') : s = s' ∧ n = n' ∧ r = r' := by
  -- the first octet tells the form, and how many octets follow it
  cases h with
  | @short b hlt =>
    have hlt' : b.toNat < 128 := UInt8.lt_iff_toNat_lt.mp hlt
    cases h' with
    | short =>
      obtain ⟨rfl, rfl⟩ := List.cons.inj heq
      exact ⟨rfl, rfl, rfl⟩
    | long hcount =>
      obtain ⟨rfl, -⟩ := List.cons.inj heq
      omega
  | long hcount =>
    cases h' with
    | @short b hlt =>
      have hlt' : b.toNat < 128 := UInt8.lt_iff_toNat_lt.mp hlt
      obtain ⟨rfl, -⟩ := List.cons.inj heq
      omega
    | long hcount' =>
      obtain ⟨rfl, htail⟩ := List.cons.inj heq
      obtain ⟨rfl, rfl⟩ := List.append_inj htail (by omega)
      exact ⟨rfl, rfl, rfl⟩

namespace Spelling

/-- **A byte string begins with one spelling at most.** -/
theorem octets_append_inj {p q : Spelling} {r r' : Bytes}
    (h : p.octets ++ r = q.octets ++ r') : p = q ∧ r = r' := by
  obtain ⟨first, digits, number, size, content, hdigits, hsize⟩ := p
  obtain ⟨first', digits', number', size', content', hdigits', hsize'⟩ := q
  simp only [octets, List.cons_append, List.append_assoc] at h
  obtain ⟨rfl, htail⟩ := List.cons.inj h
  obtain ⟨rfl, rfl, hlater⟩ := hdigits.append_inj hdigits' htail
  obtain ⟨rfl, hlength, hrest⟩ := hsize.append_inj hsize' hlater
  obtain ⟨rfl, rfl⟩ := List.append_inj hrest hlength
  exact ⟨rfl, rfl⟩

/-- Spellings one after another are told apart if it is known how many there are. -/
theorem flatMap_octets_append_inj {ps qs : List Spelling} {r r' : Bytes}
    (hlength : ps.length = qs.length)
    (h : ps.flatMap octets ++ r = qs.flatMap octets ++ r') : ps = qs ∧ r = r' := by
  induction ps generalizing qs with
  | nil =>
    obtain rfl : qs = [] := List.eq_nil_of_length_eq_zero hlength.symm
    exact ⟨rfl, h⟩
  | cons p ps ih =>
    obtain ⟨q, qs, rfl⟩ := List.exists_cons_of_length_eq_add_one hlength.symm
    rw [List.flatMap_cons, List.flatMap_cons, List.append_assoc, List.append_assoc] at h
    obtain ⟨rfl, hlater⟩ := octets_append_inj h
    obtain ⟨rfl, rfl⟩ := ih (Nat.succ.inj hlength) hlater
    exact ⟨rfl, rfl⟩

end Spelling

namespace Element

/-! ### Tag numbers -/

/-- A digit shifted into a number that is kept modulo 2^32. -/
theorem shift_digit (acc : UInt32) (b : UInt8) :
    acc * 128 + (b % 128).toUInt32 = .ofNat (acc.toNat * 128 + b.toNat % 128) := by
  apply UInt32.toNat_inj.mp
  have hmod : (b % 128).toUInt32.toNat = b.toNat % 128 := UInt8.toNat_mod b 128
  rw [UInt32.toNat_add, UInt32.toNat_mul, hmod, UInt32.toNat_ofNat']
  show (acc.toNat * 128 % 2 ^ 32 + b.toNat % 128) % 2 ^ 32 = _
  omega

/-- What is modulo 2^32 in the end may be modulo 2^32 on the way. -/
theorem ofNat_toNat_mul_add (m k n : Nat) :
    UInt32.ofNat ((UInt32.ofNat m).toNat * k + n) = .ofNat (m * k + n) := by
  apply UInt32.toNat_inj.mp
  rw [UInt32.toNat_ofNat', UInt32.toNat_ofNat', UInt32.toNat_ofNat', Nat.add_mod,
    Nat.mod_mul_mod, ← Nat.add_mod]

/-- Reading digits after a number gives the number that all of them spell, modulo 2^32. -/
theorem readGroups_eq_ok_iff {acc number : UInt32} {s rest : Bytes} :
    readGroups acc s = .ok (number, rest) ↔
      ∃ digits n, Digits digits n ∧ digits ++ rest = s ∧
        number = .ofNat (acc.toNat * 128 ^ digits.length + n) := by
  fun_induction readGroups acc s with
  | case1 acc =>
    constructor
    · intro h
      cases h
    · rintro ⟨digits, n, hd, hs, -⟩
      obtain ⟨rfl, -⟩ := List.append_eq_nil_iff.mp hs
      cases hd
  | case2 acc b s number' hb =>
    have hmod : b.toNat % 128 = b.toNat := Nat.mod_eq_of_lt (UInt8.lt_iff_toNat_lt.mp hb)
    have hlast : number' = .ofNat (acc.toNat * 128 + b.toNat) :=
      (shift_digit acc b).trans (by rw [hmod])
    constructor
    · intro h
      obtain ⟨rfl, rfl⟩ := Prod.mk.inj (Except.ok.inj h)
      exact ⟨[b], b.toNat, .last hb, rfl, hlast⟩
    · rintro ⟨digits, n, hd, hs, rfl⟩
      cases hd with
      | last =>
        obtain ⟨rfl, rfl⟩ := List.cons.inj hs
        exact congrArg (fun number => Except.ok (number, _)) hlast
      | more hge =>
        obtain ⟨rfl, -⟩ := List.cons.inj hs
        exact absurd hb (UInt8.not_lt.mpr hge)
  | case3 acc b s number' hb ih =>
    have hge : 128 ≤ b := UInt8.not_lt.mp hb
    have hmod : b.toNat % 128 = b.toNat - 128 := by
      have hle : 128 ≤ b.toNat := UInt8.le_iff_toNat_le.mp hge
      have hlt := b.toNat_lt
      omega
    have hshift : number' = .ofNat (acc.toNat * 128 + (b.toNat - 128)) :=
      (shift_digit acc b).trans (by rw [hmod])
    -- a marked digit goes into the number, and the digits after it count from there
    have hmore (digits : Bytes) (n : Nat) :
        UInt32.ofNat (number'.toNat * 128 ^ digits.length + n) =
          .ofNat (acc.toNat * 128 ^ (b :: digits).length +
            ((b.toNat - 128) * 128 ^ digits.length + n)) := by
      rw [hshift, ofNat_toNat_mul_add, List.length_cons, Nat.pow_succ, Nat.add_mul,
        Nat.mul_assoc, Nat.mul_comm 128, Nat.add_assoc]
    rw [ih]
    constructor
    · rintro ⟨digits, n, hd, rfl, rfl⟩
      exact ⟨b :: digits, _, .more hge hd, rfl, hmore digits n⟩
    · rintro ⟨digits, n, hd, hs, rfl⟩
      cases hd with
      | last hlt =>
        obtain ⟨rfl, -⟩ := List.cons.inj hs
        exact absurd hlt hb
      | more _ hd =>
        obtain ⟨rfl, hs'⟩ := List.cons.inj hs
        exact ⟨_, _, hd, hs', (hmore _ _).symm⟩

theorem readNumber_eq_ok_iff {first : UInt8} {number : UInt32} {s rest : Bytes} :
    readNumber first s = .ok (number, rest) ↔
      ∃ digits n, TagOctets first digits n ∧ digits ++ rest = s ∧ number = .ofNat n := by
  unfold readNumber
  by_cases h : first % 32 = 31
  · have hzero (digits : Bytes) (n : Nat) :
        (0 : UInt32).toNat * 128 ^ digits.length + n = n := by
      rw [UInt32.toNat_zero, Nat.zero_mul, Nat.zero_add]
    rw [if_pos h, readGroups_eq_ok_iff]
    constructor
    · rintro ⟨digits, n, hd, hs, rfl⟩
      exact ⟨digits, n, .high h hd, hs, congrArg _ (hzero digits n)⟩
    · rintro ⟨digits, n, ht, hs, rfl⟩
      cases ht with
      | low hne => exact absurd h hne
      | high _ hd => exact ⟨digits, n, hd, hs, congrArg _ (hzero digits n).symm⟩
  · have hlow : (first % 32).toUInt32 = .ofNat (first.toNat % 32) := by
      apply UInt32.toNat_inj.mp
      have hmod : (first % 32).toUInt32.toNat = first.toNat % 32 := UInt8.toNat_mod first 32
      rw [hmod, UInt32.toNat_ofNat']
      omega
    rw [if_neg h]
    constructor
    · intro hok
      obtain ⟨rfl, rfl⟩ := Prod.mk.inj (Except.ok.inj hok)
      exact ⟨[], _, .low h, rfl, hlow⟩
    · rintro ⟨digits, n, ht, hs, rfl⟩
      cases ht with
      | low => rw [hlow, ← hs, List.nil_append]
      | high heq => exact absurd heq h

/-! ### Lengths -/

theorem readLength_eq_ok_iff {n : Nat} {s rest : Bytes} :
    readLength s = .ok (n, rest) ↔ ∃ size, SizeOctets size n ∧ size ++ rest = s := by
  cases s with
  | nil =>
    constructor
    · intro h
      cases h
    · rintro ⟨size, hsize, hs⟩
      obtain ⟨rfl, -⟩ := List.append_eq_nil_iff.mp hs
      cases hsize
  | cons b s =>
    rw [readLength]
    by_cases hb : b < 128
    · rw [if_pos hb]
      constructor
      · intro h
        obtain ⟨rfl, rfl⟩ := Prod.mk.inj (Except.ok.inj h)
        exact ⟨[b], .short hb, rfl⟩
      · rintro ⟨size, hsize, hs⟩
        cases hsize with
        | short =>
          obtain ⟨rfl, rfl⟩ := List.cons.inj hs
          rfl
        | long hlong =>
          obtain ⟨rfl, -⟩ := List.cons.inj hs
          have hlt : _ < 128 := UInt8.lt_iff_toNat_lt.mp hb
          omega
    · have hge : 128 ≤ b.toNat := UInt8.le_iff_toNat_le.mp (UInt8.not_lt.mp hb)
      rw [if_neg hb]
      constructor
      · intro h
        simp only at h
        split at h
        · cases h
        · rename_i hcount
          obtain ⟨rfl, rfl⟩ := Prod.mk.inj (Except.ok.inj h)
          have htake : (s.take (b.toNat - 128)).length = b.toNat - 128 := by
            rw [List.length_take]
            omega
          exact ⟨b :: s.take (b.toNat - 128), .long (by omega) (by omega) (by omega),
            by rw [List.cons_append, List.take_append_drop]⟩
      · rintro ⟨size, hsize, hs⟩
        cases hsize with
        | short hlt =>
          obtain ⟨rfl, -⟩ := List.cons.inj hs
          exact absurd hlt hb
        | @long _ more hlong hpos hle =>
          obtain ⟨rfl, rfl : more ++ rest = s⟩ := List.cons.inj hs
          have hok : ¬ (more.length = 0 ∨ 4 < more.length ∨
              (more ++ rest).length < more.length) := by
            rw [List.length_append]
            omega
          rw [hlong, Nat.add_sub_cancel_left]
          simp only [if_neg hok, List.take_left, List.drop_left]

/-! ### Elements -/

/-- **Reading takes exactly a spelling off the front** of a byte string, and gives its element. -/
theorem read_eq_ok_iff {s rest : Bytes} {e : Element} :
    read s = .ok (e, rest) ↔ ∃ p : Spelling, p.octets ++ rest = s ∧ p.element = e := by
  constructor
  · intro h
    match s with
    | [] | [_] => cases h
    | first :: second :: s =>
      rw [read] at h
      cases hn : readNumber first (second :: s) with
      | error e => rw [hn] at h; cases h
      | ok q =>
        obtain ⟨number, s₁⟩ := q
        rw [hn] at h
        cases hl : readLength s₁ with
        | error e => simp only [bind, Except.bind, hl] at h; cases h
        | ok q =>
          obtain ⟨length, s₂⟩ := q
          simp only [bind, Except.bind, hl] at h
          split at h
          · cases h
          · rename_i hlt
            obtain ⟨rfl, rfl⟩ := Prod.mk.inj (Except.ok.inj h)
            obtain ⟨digits, n, hdigits, hs₁, rfl⟩ := readNumber_eq_ok_iff.mp hn
            obtain ⟨size, hsize, rfl⟩ := readLength_eq_ok_iff.mp hl
            have htake : (s₂.take length).length = length := by
              rw [List.length_take]
              omega
            refine ⟨⟨first, digits, n, size, s₂.take length, hdigits, htake.symm ▸ hsize⟩, ?_, rfl⟩
            rw [← hs₁, Spelling.octets]
            simp only [List.cons_append, List.append_assoc, List.take_append_drop]
  · rintro ⟨p, rfl, rfl⟩
    have hlength := p.length_octets
    have hn : readNumber p.first (p.digits ++ (p.size ++ (p.content ++ rest))) =
        .ok (p.tag, p.size ++ (p.content ++ rest)) :=
      readNumber_eq_ok_iff.mpr ⟨p.digits, p.number, p.spells_number, rfl, rfl⟩
    have hl : readLength (p.size ++ (p.content ++ rest)) =
        .ok (p.content.length, p.content ++ rest) :=
      readLength_eq_ok_iff.mpr ⟨p.size, p.spells_length, rfl⟩
    have hfits : ¬ (p.content ++ rest).length < p.content.length := by
      rw [List.length_append]
      omega
    have hoctets : p.octets ++ rest =
        p.first :: (p.digits ++ (p.size ++ (p.content ++ rest))) := by
      simp only [Spelling.octets, List.cons_append, List.append_assoc]
    -- there is a second octet, for the length takes one at least
    have hne : p.digits ++ (p.size ++ (p.content ++ rest)) ≠ [] := fun hnil => by
      have heq := congrArg List.length hoctets
      rw [hnil, List.length_append, List.length_singleton] at heq
      omega
    obtain ⟨second, later, hcons⟩ := List.exists_cons_of_ne_nil hne
    rw [hoctets, hcons, read, ← hcons, hn]
    simp only [bind, Except.bind, hl, if_neg hfits, List.take_left, List.drop_left]
    rfl

theorem read_octets (p : Spelling) (rest : Bytes) :
    read (p.octets ++ rest) = .ok (p.element, rest) :=
  read_eq_ok_iff.mpr ⟨p, rfl, rfl⟩

/-- **A scan comes to its end exactly where the octets are spellings one after another**, and finds
their elements. -/
theorem scan_eq_iff {s : Bytes} {es : List Element} :
    scan s = (es, none) ↔
      ∃ ps : List Spelling, ps.flatMap Spelling.octets = s ∧ ps.map Spelling.element = es := by
  fun_induction scan s generalizing es with
  | case1 =>
    constructor
    · intro h
      obtain ⟨rfl, -⟩ := Prod.mk.inj h
      exact ⟨[], rfl, rfl⟩
    · rintro ⟨ps, hs, rfl⟩
      cases ps with
      | nil => rfl
      | cons p ps => cases hs
  | case2 s hne failure hr =>
    constructor
    · intro h
      cases h
    · rintro ⟨ps, rfl, rfl⟩
      cases ps with
      | nil => exact absurd rfl hne
      | cons p ps =>
        rw [List.flatMap_cons, read_octets] at hr
        cases hr
  | case3 s hne e rest hr hlt es' failure hscan ih =>
    rw [hscan] at ih
    constructor
    · intro h
      obtain ⟨rfl, rfl⟩ := Prod.mk.inj h
      obtain ⟨ps, rfl, rfl⟩ := ih.mp rfl
      obtain ⟨p, rfl, rfl⟩ := read_eq_ok_iff.mp hr
      exact ⟨p :: ps, List.flatMap_cons, rfl⟩
    · rintro ⟨ps, rfl, rfl⟩
      cases ps with
      | nil => exact absurd rfl hne
      | cons p ps =>
        rw [List.flatMap_cons, read_octets] at hr
        obtain ⟨rfl, rfl⟩ := Prod.mk.inj (Except.ok.inj hr)
        obtain ⟨rfl, rfl⟩ := Prod.mk.inj (ih.mpr ⟨ps, rfl, rfl⟩)
        rfl

end Element

end DeviceAttest.Der
