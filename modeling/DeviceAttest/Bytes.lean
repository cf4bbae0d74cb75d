/-!
# Byte strings

Byte strings are lists of octets, the form in which every reader of this library takes its input
and every writer gives its output.  The module holds the big-endian value of a byte string, the
shortest big-endian spelling of a number, the UTF-8 octets of a text, and hexadecimal text in both
cases with its reader.
-/

namespace DeviceAttest

/-- A byte string. -/
abbrev Bytes := List UInt8

namespace Bytes

/-! ### Big-endian numbers -/

/-- The big-endian value of a byte string, read after a number already accumulated. -/
def bigEndianFrom (acc : Nat) : Bytes → Nat
  | []     => acc
  | b :: s => bigEndianFrom (acc * 256 + b.toNat) s

/-- The big-endian value of a byte string. -/
def bigEndian (s : Bytes) : Nat := bigEndianFrom 0 s

/-- The shortest big-endian spelling of a number; zero has the empty one. -/
def ofNat (n : Nat) : Bytes :=
  if n = 0 then [] else ofNat (n / 256) ++ [UInt8.ofNat n]

theorem bigEndianFrom_append (acc : Nat) (s t : Bytes) :
    bigEndianFrom acc (s ++ t) = bigEndianFrom (bigEndianFrom acc s) t := by
  induction s generalizing acc with
  | nil => rfl
  | cons b s ih => exact ih _

/-- A number is the value of its shortest spelling. -/
theorem bigEndian_ofNat (n : Nat) : bigEndian (ofNat n) = n := by
  fun_induction ofNat n with
  | case1 => rfl
  | case2 n _ ih =>
    rw [bigEndian, bigEndianFrom_append, ← bigEndian, ih]
    simp only [bigEndianFrom, UInt8.toNat_ofNat']
    omega

/-! ### Text -/

/-- The UTF-8 octets of a text. -/
def ofText (text : String) : Bytes := text.toUTF8.data.toList

/-- The text that the octets spell in UTF-8, if they spell one. -/
def toText? (s : Bytes) : Option String := String.fromUTF8? ⟨s.toArray⟩

/-! ### Hexadecimal text -/

/-- The letter case of hexadecimal digits. -/
inductive HexCase where
  | lower | upper

/-- The hexadecimal digit of a number below sixteen. -/
def hexDigit (digits : HexCase) (n : Nat) : Char :=
  if n < 10 then Char.ofNat ('0'.toNat + n)
  else match digits with
    | .lower => Char.ofNat ('a'.toNat + (n - 10))
    | .upper => Char.ofNat ('A'.toNat + (n - 10))

/-- The two hexadecimal digits of an octet. -/
def hexOctet (digits : HexCase) (b : UInt8) : List Char :=
  [hexDigit digits (b.toNat / 16), hexDigit digits (b.toNat % 16)]

/-- Hexadecimal text, two digits an octet. -/
def hex (digits : HexCase) (s : Bytes) : String := String.ofList (s.flatMap (hexOctet digits))

/-- The value of a hexadecimal digit in either case. -/
def hexValue? (c : Char) : Option Nat :=
  if '0' ≤ c ∧ c ≤ '9' then some (c.toNat - '0'.toNat)
  else if 'a' ≤ c ∧ c ≤ 'f' then some (c.toNat - 'a'.toNat + 10)
  else if 'A' ≤ c ∧ c ≤ 'F' then some (c.toNat - 'A'.toNat + 10)
  else none

/-- Reads hexadecimal digits in pairs. -/
def ofHexDigits? : List Char → Option Bytes
  | []          => some []
  | [_]         => none
  | a :: b :: s => do
    let high ← hexValue? a
    let low ← hexValue? b
    let octets ← ofHexDigits? s
    pure (UInt8.ofNat (16 * high + low) :: octets)

/-- The byte string that a hexadecimal text spells. -/
def ofHex? (text : String) : Option Bytes := ofHexDigits? text.toList

end Bytes

end DeviceAttest
