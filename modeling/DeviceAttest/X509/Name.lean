import DeviceAttest.X509.Element
import DeviceAttest.X509.Oid

/-!
# Distinguished names

A name is a sequence of sets of attributes.  Reading a name takes what is well formed at the front
of the sequence, and of each set, and leaves the rest aside.  The text of a name shows the
attributes in order; a single attribute whose text is ill-formed spoils the whole name.
-/

namespace DeviceAttest.X509

/-- The text of UTF-16 code units; none if a surrogate stands alone. -/
def ofUtf16? : List Nat → Option (List Char)
  | []     => some []
  | u :: s =>
    if u < 0xd800 ∨ 0xdfff < u then (ofUtf16? s).map (Char.ofNat u :: ·)
    else if u < 0xdc00 then
      match s with
      | v :: s =>
        if 0xdc00 ≤ v ∧ v ≤ 0xdfff then
          (ofUtf16? s).map (Char.ofNat (0x10000 + (u - 0xd800) * 0x400 + (v - 0xdc00)) :: ·)
        else none
      | []     => none
    else none

/-- The big-endian code units of a byte string; an odd last octet is a unit by itself. -/
def utf16Units : Bytes → List Nat
  | []          => []
  | [a]         => [a.toNat]
  | a :: b :: s => (a.toNat * 256 + b.toNat) :: utf16Units s

/-- One attribute of a name. -/
structure Attribute where
  oid : Oid
  value : Der.Element
  deriving DecidableEq

namespace Attribute

/-- The tag numbers of character strings whose octets are read as UTF-8. -/
def textNumbers : List UInt32 := [7, 12, 18, 19, 20, 21, 22, 25, 26, 27]

/-- The tag number of character strings in UTF-16. -/
def utf16Number : UInt32 := 30

/-- The text of an attribute's value; a value that is no character string shows its octets. -/
def valueText? (a : Attribute) : Option String :=
  if a.value.number ∈ textNumbers then Bytes.toText? a.value.content
  else if a.value.number = utf16Number then
    (ofUtf16? (utf16Units a.value.content)).map String.ofList
  else some (Bytes.hex .upper a.value.content)

/-- The text of an attribute: its key and its value. -/
def text? (a : Attribute) : Option String := do
  let value ← a.valueText?
  some (a.oid.key ++ "=" ++ value)

/-- Takes one attribute off the front of a byte string. -/
def read (s : Bytes) : Option (Attribute × Bytes) := do
  let (body, rest) ← readTagged 16 s
  let (oid, body) ← readPrimitive body
  let (value, _) ← readElement body
  some (⟨⟨oid.content⟩, value⟩, rest)

end Attribute

/-- A name: the attributes of each of its parts. -/
structure Name where
  parts : List (List Attribute)
  deriving DecidableEq

namespace Name

/-- Takes one part of a name off the front of a byte string; a part has at least one attribute. -/
def readPart (s : Bytes) : Option (List Attribute × Bytes) := do
  let (body, rest) ← readTagged 17 s
  let (attributes, _) := readMany Attribute.read body
  if attributes.isEmpty then none else some (attributes, rest)

/-- Takes one name off the front of a byte string. -/
def read (s : Bytes) : Option (Name × Bytes) := do
  let (body, rest) ← readTagged 16 s
  some (⟨(readMany readPart body).1⟩, rest)

/-- The text of one part. -/
def partText? (attributes : List Attribute) : Option String := do
  let texts ← attributes.mapM Attribute.text?
  some (" + ".intercalate texts)

/-- The text of a name whose attributes all have one. -/
def text? (n : Name) : Option String := do
  let texts ← n.parts.mapM partText?
  some (", ".intercalate texts)

/-- The text of a name. -/
def text (n : Name) : String := n.text?.getD "<X509Error: Invalid X.509 name>"

end Name

end DeviceAttest.X509
