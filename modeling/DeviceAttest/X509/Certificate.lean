import DeviceAttest.X509.Name
import DeviceAttest.X509.Time

/-!
# X.509 certificates

`Certificate.read` takes one certificate off the front of a byte string and keeps what a caller
asks of it: both names, the serial number and the key attestation extension.  All other fields are
checked for their form only, and neither signatures nor validity periods are judged.
-/

namespace DeviceAttest.X509

/-- What is kept of a certificate. -/
structure Certificate where
  subject : Name
  issuer : Name
  serial : Bytes
  attestation : Option Bytes
  deriving DecidableEq

/-! ### Fields that are only checked -/

/-- Whether the content is that of a number below 2^32, written with the fewest octets. -/
def isSmallNatural (content : Bytes) : Bool :=
  match content with
  | []          => false
  | [a]         => a < 128
  | a :: b :: _ => a < 128 && (a ≠ 0 || 128 ≤ b) && Bytes.bigEndian content ≤ 0xffffffff

/-- The header at the front of a byte string, which must state a length. -/
def readDefinite (s : Bytes) : Option Header := do
  let (header, _) ← readHeader s
  if header.length.isNone then none else some header

/-- Skips the version, if the first header has its tag number. -/
def skipVersion (s : Bytes) : Option Bytes :=
  if s = [] then some s
  else do
    let header ← readDefinite s
    -- the header alone decides; the element behind it is read only if it is a version
    if header.number ≠ 0 then some s
    else
      let (e, rest) ← readElement s
      if e.tagClass ≠ .contextSpecific then none
      else
        let (version, _) ← readPrimitive e.content
        if version.number = 2 ∧ isSmallNatural version.content then some rest else none

/-- Skips an algorithm: an object identifier and perhaps one element of parameters. -/
def skipAlgorithm (s : Bytes) : Option Bytes := do
  let (body, rest) ← readTagged 16 s
  let (_, body) ← readPrimitive body
  if body = [] then some rest
  else
    let _ ← readElement body
    some rest

/-- Whether a byte string ends in as many zero bits; they must all be in its last octet. -/
def endsInZeros (count : Nat) (s : Bytes) : Bool :=
  match s.getLast? with
  | none      => count = 0
  | some last => count ≤ 8 && last.toNat % Nat.pow 2 count = 0

/-- Skips a BIT STRING: a count of unused bits, then the octets that end in as many zeros. -/
def skipBitString (s : Bytes) : Option Bytes := do
  let (e, rest) ← readPrimitive s
  if e.number ≠ 3 then none
  else
    match e.content with
    | []             => none
    | unused :: bits => if endsInZeros unused.toNat bits then some rest else none

/-- Skips a time in either notation. -/
def skipTime (s : Bytes) : Option Bytes := do
  let (e, rest) ← readElement s
  if e.number = 23 ∧ Time.isUtcTime e.content
      ∨ e.number = 24 ∧ Time.isGeneralizedTime e.content then some rest
  else none

/-- Skips a validity period. -/
def skipValidity (s : Bytes) : Option Bytes := do
  let (body, rest) ← readTagged 16 s
  let body ← skipTime body
  let _ ← skipTime body
  some rest

/-- Skips a public key. -/
def skipPublicKey (s : Bytes) : Option Bytes := do
  let (body, rest) ← readTagged 16 s
  let body ← skipAlgorithm body
  let _ ← skipBitString body
  some rest

/-- Skips a unique identifier, if the next header has its tag number. -/
def skipUniqueId (number : UInt32) (s : Bytes) : Option Bytes :=
  if s = [] then some s
  else do
    let header ← readDefinite s
    if header.number ≠ number then some s
    else
      let (e, rest) ← readElement s
      if e.tagClass = .contextSpecific ∧ e.content ≠ [] then some rest else none

/-! ### Serial number and extensions -/

/-- Reads the serial number, the content of an element that may have an indefinite length. -/
def readSerial (s : Bytes) : Option (Bytes × Bytes) := do
  let (e, rest) ← readOpenElement s
  if e.number = 2 then some (e.content, rest) else none

/-- Skips the mark of a critical extension, if there is one. -/
def skipCritical (s : Bytes) : Bytes :=
  match readTagged 1 s with
  | some ([_], rest) => rest
  | _                => s

/-- Takes one extension off the front of a byte string. -/
def readExtension (s : Bytes) : Option ((Oid × Bytes) × Bytes) := do
  let (body, rest) ← readTagged 16 s
  let (oid, body) ← readPrimitive body
  let (value, _) ← readPrimitive (skipCritical body)
  if value.number = 4 then some ((⟨oid.content⟩, value.content), rest) else none

/-- Reads the extensions, which must fill what is left of the certified part. -/
def readExtensions (s : Bytes) : Option (List (Oid × Bytes)) :=
  if s = [] then some []
  else do
    let (header, s) ← readHeader s
    if header.number ≠ 3 ∨ header.length.isNone then none
    else
      -- the stated length is not used: the list that follows has one of its own
      let (body, rest) ← readTagged 16 s
      let (extensions, unread) := readMany readExtension body
      if rest = [] ∧ unread = [] then some extensions else none

/-! ### Certificates -/

/-- Reads the certified part. -/
def readCertified (s : Bytes) : Option Certificate := do
  let s ← skipVersion s
  let (serial, s) ← readSerial s
  let s ← skipAlgorithm s
  let (issuer, s) ← Name.read s
  let s ← skipValidity s
  let (subject, s) ← Name.read s
  let s ← skipPublicKey s
  let s ← skipUniqueId 1 s
  let s ← skipUniqueId 2 s
  let extensions ← readExtensions s
  let attestation := extensions.find? fun extension => extension.1.isKeyAttestation
  some ⟨subject, issuer, serial, attestation.map Prod.snd⟩

/-- Takes one certificate off the front of a byte string. -/
def Certificate.read (s : Bytes) : Option (Certificate × Bytes) := do
  let (body, rest) ← readTagged 16 s
  let (certified, body) ← readTagged 16 body
  let body ← skipAlgorithm body
  let _ ← skipBitString body
  let certificate ← readCertified certified
  some (certificate, rest)

/-- Reading a certificate leaves a proper suffix. -/
theorem Certificate.suffix_of_read {s r : Bytes} {c : Certificate}
    (h : Certificate.read s = some (c, r)) : r.length < s.length ∧ r <:+ s := by
  simp only [Certificate.read, Option.bind_eq_bind, Option.bind_eq_some_iff, Prod.exists] at h
  obtain ⟨body, rest, hs, _, _, _, _, _, _, _, _, h⟩ := h
  obtain ⟨_, rfl⟩ := Prod.mk.inj (Option.some.inj h.2)
  exact suffix_of_readTagged hs

end DeviceAttest.X509
