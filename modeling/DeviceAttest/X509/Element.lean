import DeviceAttest.Der.Element

/-!
# Elements of certificates

Certificates are read more liberally than key descriptions in the length (up to 126 length octets,
of a value below 2^64) and more strictly in the tag (at most five octets after the first).
`readElement` takes an element of definite length; `readOpenElement` also takes a constructed
element of indefinite length, whose content runs up to an end marker.
-/

namespace DeviceAttest.X509

open Der (TagClass Element)

/-- What stands before the content of an element; no length means an indefinite one. -/
structure Header where
  tagClass : TagClass
  constructed : Bool
  number : UInt32
  length : Option Nat
  deriving DecidableEq

/-! ### Headers -/

/-- Reads up to `room` base-128 digits, through the first unmarked one, modulo 2^32. -/
def readGroups (acc : UInt32) : Nat → Bytes → Option (UInt32 × Bytes)
  | room + 1, b :: s =>
    let number := acc * 128 + (b % 128).toUInt32
    if b < 128 then some (number, s) else readGroups number room s
  | _, _ => none

/-- Reads the rest of a tag number whose first identifier octet is `first`. -/
def readNumber (first : UInt8) (s : Bytes) : Option (UInt32 × Bytes) :=
  if first % 32 = 31 then readGroups 0 5 s else some ((first % 32).toUInt32, s)

/-- Reads a length: short, indefinite, or 1 to 126 octets of a value below 2^64. -/
def readLength : Bytes → Option (Option Nat × Bytes)
  | []     => none
  | b :: s =>
    if b < 128 then some (some b.toNat, s)
    else if b = 128 then some (none, s)
    else
      let count := b.toNat - 128
      let length := Bytes.bigEndian (s.take count)
      if count = 127 ∨ s.length < count ∨ 0xffffffffffffffff < length then none
      else some (some length, s.drop count)

/-- Reads what stands before the content of an element. -/
def readHeader : Bytes → Option (Header × Bytes)
  | []         => none
  | first :: s => do
    let (number, s) ← readNumber first s
    let (length, s) ← readLength s
    some (⟨TagClass.ofOctet first, first &&& 0x20 ≠ 0, number, length⟩, s)

theorem suffix_of_readGroups {acc n : UInt32} {room : Nat} {s r : Bytes}
    (h : readGroups acc room s = some (n, r)) : r.length < s.length ∧ r <:+ s := by
  fun_induction readGroups acc room s with
  | case1 acc room b s number hb =>
    obtain ⟨_, rfl⟩ := Prod.mk.inj (Option.some.inj h)
    exact ⟨by simp, List.suffix_cons b s⟩
  | case2 acc room b s number hb ih =>
    have ⟨h₁, h₂⟩ := ih h
    exact ⟨by simp only [List.length_cons]; omega, h₂.trans (List.suffix_cons b s)⟩
  | case3 => cases h

theorem suffix_of_readNumber {first : UInt8} {s r : Bytes} {n : UInt32}
    (h : readNumber first s = some (n, r)) : r.length ≤ s.length ∧ r <:+ s := by
  unfold readNumber at h
  split at h
  · have ⟨h₁, h₂⟩ := suffix_of_readGroups h
    exact ⟨Nat.le_of_lt h₁, h₂⟩
  · obtain ⟨_, rfl⟩ := Prod.mk.inj (Option.some.inj h)
    exact ⟨Nat.le_refl _, List.suffix_refl _⟩

theorem suffix_of_readLength {s r : Bytes} {n : Option Nat}
    (h : readLength s = some (n, r)) : r.length < s.length ∧ r <:+ s := by
  cases s with
  | nil => cases h
  | cons b s =>
    simp only [readLength] at h
    split at h
    · obtain ⟨_, rfl⟩ := Prod.mk.inj (Option.some.inj h)
      exact ⟨by simp, List.suffix_cons b _⟩
    · split at h
      · obtain ⟨_, rfl⟩ := Prod.mk.inj (Option.some.inj h)
        exact ⟨by simp, List.suffix_cons b _⟩
      · split at h
        · cases h
        · obtain ⟨_, rfl⟩ := Prod.mk.inj (Option.some.inj h)
          refine ⟨?_, (List.drop_suffix _ s).trans (List.suffix_cons b s)⟩
          simp only [List.length_drop, List.length_cons]
          omega

/-- Reading a header leaves a proper suffix. -/
theorem suffix_of_readHeader {s r : Bytes} {header : Header}
    (h : readHeader s = some (header, r)) : r.length < s.length ∧ r <:+ s := by
  cases s with
  | nil => cases h
  | cons first s =>
    simp only [readHeader, Option.bind_eq_bind, Option.bind_eq_some_iff, Prod.exists] at h
    obtain ⟨number, s₁, hn, length, s₂, hl, h⟩ := h
    obtain ⟨_, rfl⟩ := Prod.mk.inj (Option.some.inj h)
    have ⟨h₁, t₁⟩ := suffix_of_readNumber hn
    have ⟨h₂, t₂⟩ := suffix_of_readLength hl
    refine ⟨?_, (t₂.trans t₁).trans (List.suffix_cons first s)⟩
    simp only [List.length_cons]
    omega

/-! ### Elements of definite length -/

/-- Takes one element of definite length off the front of a byte string. -/
def readElement (s : Bytes) : Option (Element × Bytes) := do
  let (header, s) ← readHeader s
  let length ← header.length
  if s.length < length then none
  else
    some (⟨header.tagClass, header.constructed, header.number, s.take length⟩, s.drop length)

/-- Takes one element with a given tag number off the front and gives its content. -/
def readTagged (number : UInt32) (s : Bytes) : Option (Bytes × Bytes) := do
  let (e, s) ← readElement s
  if e.number = number then some (e.content, s) else none

/-- Takes one primitive element off the front. -/
def readPrimitive (s : Bytes) : Option (Element × Bytes) := do
  let (e, s) ← readElement s
  if e.constructed then none else some (e, s)

/-- Reading an element leaves a proper suffix. -/
theorem suffix_of_readElement {s r : Bytes} {e : Element}
    (h : readElement s = some (e, r)) : r.length < s.length ∧ r <:+ s := by
  simp only [readElement, Option.bind_eq_bind, Option.bind_eq_some_iff, Prod.exists] at h
  obtain ⟨header, s₁, hh, length, _, h⟩ := h
  have ⟨h₁, t₁⟩ := suffix_of_readHeader hh
  split at h
  · cases h
  · obtain ⟨_, rfl⟩ := Prod.mk.inj (Option.some.inj h)
    refine ⟨?_, (List.drop_suffix _ s₁).trans t₁⟩
    simp only [List.length_drop]
    omega

/-- Reading an element with a given tag number leaves a proper suffix. -/
theorem suffix_of_readTagged {number : UInt32} {s r content : Bytes}
    (h : readTagged number s = some (content, r)) : r.length < s.length ∧ r <:+ s := by
  simp only [readTagged, Option.bind_eq_bind, Option.bind_eq_some_iff, Prod.exists] at h
  obtain ⟨e, s₁, he, h⟩ := h
  split at h
  · obtain ⟨_, rfl⟩ := Prod.mk.inj (Option.some.inj h)
    exact suffix_of_readElement he
  · cases h

/-- The content of each leading item that `item` reads off the front, up to the first element
where it fails. -/
def readMany {α : Type} (item : Bytes → Option (α × Bytes)) (s : Bytes) : List α × Bytes :=
  match item s with
  | none           => ([], s)
  | some (a, rest) =>
    if rest.length < s.length then
      let (as, rest) := readMany item rest
      (a :: as, rest)
    else ([], s)
termination_by s.length

/-! ### Elements of indefinite length -/

/-- How deep elements of indefinite length may be nested. -/
def maxDepth : Nat := 50

/-- What is left after the content of an element, and whether the element is an end marker. -/
abbrev Skipped (s : Bytes) : Type := { r : Bytes // r.length ≤ s.length } × Bool

/-- Skips elements through the first end marker. -/
def skipToEnd (skip : Header → (s : Bytes) → Option (Skipped s)) (s : Bytes) :
    Option { r : Bytes // r.length ≤ s.length } :=
  match h : readHeader s with
  | none             => none
  | some (header, r) =>
    have hr := (suffix_of_readHeader h).1
    match skip header r with
    | none                => none
    | some (⟨r', h'⟩, true)  => some ⟨r', by omega⟩
    | some (⟨r', h'⟩, false) =>
      (skipToEnd skip r').map fun ⟨r'', h''⟩ => ⟨r'', by omega⟩
termination_by s.length

/-- Skips the content of an element.  An element of tag number zero and length zero, whatever its
class, is an end marker. -/
def skipContent : Nat → Header → (s : Bytes) → Option (Skipped s)
  | 0, _, _              => none
  | depth + 1, header, s =>
    match header.length with
    | some length =>
      if length = 0 ∧ header.number = 0 then some (⟨s, Nat.le_refl _⟩, true)
      else if s.length < length then none
      else some (⟨s.drop length, by simp⟩, false)
    | none =>
      if header.constructed then (skipToEnd (skipContent depth) s).map (·, false) else none

/-- Takes one element off the front whose length may be indefinite; the two octets of the end
marker are then no part of its content. -/
def readOpenElement (s : Bytes) : Option (Element × Bytes) := do
  let (header, s) ← readHeader s
  let (rest, _) ← skipContent maxDepth header s
  -- two octets for the end marker, which only an indefinite length has
  let length := s.length - rest.val.length - (if header.length.isNone then 2 else 0)
  some (⟨header.tagClass, header.constructed, header.number, s.take length⟩, rest.val)

end DeviceAttest.X509
