import DeviceAttest.Bytes

/-!
# DER integers of 64 bits

The content octets of INTEGER and ENUMERATED elements: two's complement, most significant octet
first.  `Integer.content` writes the fewest octets; `Integer.read?` takes any one to eight.
-/

namespace DeviceAttest.Der.Integer

/-! ### Reading -/

/-- What the sign bit of the first octet contributes before any octet is read. -/
def signFill : Bytes → Int64
  | []     => 0
  | b :: _ => if b < 128 then 0 else -1

/-- Shifts the octets in, one after the other. -/
def accumulate (acc : Int64) (s : Bytes) : Int64 :=
  s.foldl (fun acc b => acc * 256 + Int64.ofNat b.toNat) acc

/-- The number that one to eight content octets spell; other lengths spell none. -/
def read? (s : Bytes) : Option Int64 :=
  if s.length = 0 ∨ 8 < s.length then none else some (accumulate (signFill s) s)

/-! ### Writing -/

/-- The eight octets of a number, most significant first. -/
def octets (n : Int64) : Bytes :=
  ([56, 48, 40, 32, 24, 16, 8, 0] : List UInt64).map fun shift => (n.toUInt64 >>> shift).toUInt8

/-- Drops leading octets that only repeat the sign bit of the octet after them. -/
def dropRedundant : Bytes → Bytes
  | a :: b :: s =>
    if (a = 0 ∧ b < 128) ∨ (a = 255 ∧ 128 ≤ b) then dropRedundant (b :: s) else a :: b :: s
  | s => s

/-- The fewest content octets that spell a number. -/
def content (n : Int64) : Bytes := dropRedundant (octets n)

end DeviceAttest.Der.Integer
