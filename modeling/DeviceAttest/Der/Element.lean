import DeviceAttest.Bytes

/-!
# DER elements

One element is an identifier (class, constructed bit, tag number), a definite length and that many
content octets.  `Element.write` gives its shortest spelling; `Element.read` takes one element off
the front of a byte string and is more liberal: it accepts tag numbers and lengths that are longer
than need be, counts tag numbers modulo 2^32, and takes long lengths of one to four octets only.
Reading always leaves a shorter rest (`Element.length_of_read`), so `Element.scan` may split a
whole byte string by recursion on its length.
-/

namespace DeviceAttest.Der

/-- The class of a tag, the two high bits of the identifier octet. -/
inductive TagClass where
  | universal | application | contextSpecific | privateUse
  deriving DecidableEq

namespace TagClass

/-- The two bits of a class as a number. -/
def code : TagClass → UInt8
  | universal       => 0
  | application     => 1
  | contextSpecific => 2
  | privateUse      => 3

/-- The class that the two high bits of an identifier octet name. -/
def ofOctet (first : UInt8) : TagClass :=
  if first < 0x40 then universal
  else if first < 0x80 then application
  else if first < 0xc0 then contextSpecific
  else privateUse

end TagClass

/-- One tag, length, value unit. -/
structure Element where
  tagClass : TagClass
  constructed : Bool
  number : UInt32
  content : Bytes
  deriving DecidableEq

namespace Element

/-! ### Writing -/

/-- The base-128 digits before the last one, each marked by its high bit. -/
def leadingGroups (n : Nat) : Bytes :=
  if n = 0 then [] else leadingGroups (n / 128) ++ [UInt8.ofNat (128 + n % 128)]

/-- The base-128 digits of a number, all but the last one marked by the high bit. -/
def groups (n : Nat) : Bytes := leadingGroups (n / 128) ++ [UInt8.ofNat (n % 128)]

/-- The bit of an identifier octet that says the content is made of elements. -/
def constructedBit (constructed : Bool) : UInt8 := if constructed then 0x20 else 0

/-- The identifier octets: one for a tag number below 31, else base-128 digits after 31. -/
def identifier (tagClass : TagClass) (constructed : Bool) (number : UInt32) : Bytes :=
  let high := tagClass.code * 64 + constructedBit constructed
  if number < 31 then [high + number.toUInt8] else (high + 31) :: groups number.toNat

/-- The length octets: one below 128, else the count of the big-endian octets and these. -/
def lengthOctets (n : Nat) : Bytes :=
  if n < 128 then [UInt8.ofNat n]
  else UInt8.ofNat (128 + (Bytes.ofNat n).length) :: Bytes.ofNat n

/-- The octets before the content. -/
def header (e : Element) : Bytes :=
  identifier e.tagClass e.constructed e.number ++ lengthOctets e.content.length

/-- The shortest spelling of an element. -/
def write (e : Element) : Bytes := e.header ++ e.content

/-! ### Reading -/

/-- Why a byte string does not begin with an element. -/
inductive ReadError where
  | truncatedHeader
  | truncatedNumber
  | truncatedLength
  | badLength
  | truncatedContent
  deriving DecidableEq

/-- The wording of a failed read. -/
def ReadError.message : ReadError → String
  | truncatedHeader  => "truncated TLV"
  | truncatedNumber  => "truncated high-tag-number"
  | truncatedLength  => "truncated length"
  | badLength        => "invalid long-form length"
  | truncatedContent => "truncated value"

/-- Reads base-128 digits up to the first unmarked one; the number is kept modulo 2^32. -/
def readGroups (acc : UInt32) : Bytes → Except ReadError (UInt32 × Bytes)
  | []     => .error .truncatedNumber
  | b :: s =>
    let number := acc * 128 + (b % 128).toUInt32
    if b < 128 then .ok (number, s) else readGroups number s

/-- Reads the rest of a tag number whose first identifier octet is `first`. -/
def readNumber (first : UInt8) (s : Bytes) : Except ReadError (UInt32 × Bytes) :=
  if first % 32 = 31 then readGroups 0 s else .ok ((first % 32).toUInt32, s)

/-- Reads a definite length in short form or in long form of one to four octets. -/
def readLength : Bytes → Except ReadError (Nat × Bytes)
  | []     => .error .truncatedLength
  | b :: s =>
    if b < 128 then .ok (b.toNat, s)
    else
      let count := b.toNat - 128
      if count = 0 ∨ 4 < count ∨ s.length < count then .error .badLength
      else .ok (Bytes.bigEndian (s.take count), s.drop count)

/-- Takes one element off the front of a byte string and gives the rest. -/
def read : Bytes → Except ReadError (Element × Bytes)
  | first :: second :: s => do
    let (number, s) ← readNumber first (second :: s)
    let (length, s) ← readLength s
    if s.length < length then .error .truncatedContent
    else
      .ok (⟨TagClass.ofOctet first, first &&& 0x20 ≠ 0, number, s.take length⟩, s.drop length)
  | _ => .error .truncatedHeader

theorem length_of_readGroups {acc : UInt32} {s r : Bytes} {n : UInt32}
    (h : readGroups acc s = .ok (n, r)) : r.length < s.length := by
  fun_induction readGroups acc s with
  | case1 => cases h
  | case2 acc b s number hb =>
    obtain ⟨_, rfl⟩ := Prod.mk.inj (Except.ok.inj h)
    simp
  | case3 acc b s number hb ih => have := ih h; simp only [List.length_cons]; omega

theorem length_of_readNumber {first : UInt8} {s r : Bytes} {n : UInt32}
    (h : readNumber first s = .ok (n, r)) : r.length ≤ s.length := by
  unfold readNumber at h
  split at h
  · exact Nat.le_of_lt (length_of_readGroups h)
  · obtain ⟨_, rfl⟩ := Prod.mk.inj (Except.ok.inj h)
    exact Nat.le_refl _

theorem length_of_readLength {s r : Bytes} {n : Nat}
    (h : readLength s = .ok (n, r)) : r.length < s.length := by
  cases s with
  | nil => cases h
  | cons b s =>
    simp only [readLength] at h
    split at h
    · obtain ⟨_, rfl⟩ := Prod.mk.inj (Except.ok.inj h)
      simp
    · split at h
      · cases h
      · obtain ⟨_, rfl⟩ := Prod.mk.inj (Except.ok.inj h)
        simp only [List.length_drop, List.length_cons]
        omega

/-- Reading an element leaves a shorter rest. -/
theorem length_of_read {s r : Bytes} {e : Element} (h : read s = .ok (e, r)) :
    r.length < s.length := by
  match s with
  | [] | [_] => cases h
  | first :: second :: s =>
    rw [read] at h
    cases hn : readNumber first (second :: s) with
    | error e => rw [hn] at h; cases h
    | ok p =>
      obtain ⟨number, s₁⟩ := p
      rw [hn] at h
      cases hl : readLength s₁ with
      | error e => simp only [bind, Except.bind, hl] at h; cases h
      | ok q =>
        obtain ⟨length, s₂⟩ := q
        have h₁ := length_of_readNumber hn
        have h₂ := length_of_readLength hl
        simp only [bind, Except.bind, hl] at h
        split at h
        · cases h
        · obtain ⟨_, rfl⟩ := Prod.mk.inj (Except.ok.inj h)
          simp only [List.length_drop, List.length_cons] at *
          omega

/-- The elements at the front of a byte string, in order, and why the rest holds no further one;
no failure means that nothing is left. -/
def scan (s : Bytes) : List Element × Option ReadError :=
  if s = [] then ([], none)
  else match h : read s with
    | .error failure => ([], some failure)
    | .ok (e, rest)  =>
      have := length_of_read h
      let (es, failure) := scan rest
      (e :: es, failure)
termination_by s.length

end Element

end DeviceAttest.Der
