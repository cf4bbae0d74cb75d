import DeviceAttest.KeyDescription.Encode

/-!
# Reading key descriptions

`KeyDescription.parse` reads the eight elements of an attestation extension in order and collects
the attested identifiers of both authorization lists.  Only an element's class and number are
looked at, except that an identifier's element must be constructed; what follows the eighth element
inside the SEQUENCE, or the OCTET STRING inside an identifier's element, is not read.
-/

namespace DeviceAttest.KeyDescription

open Der (Element)

/-- The parts of a key description by which a failure is told. -/
inductive Part where
  | description | integer | enumerated | octetString | softwareList | hardwareList
  deriving DecidableEq

namespace Part

/-- The universal tag number that a part must have. -/
def number : Part → UInt32
  | description  => Der.sequenceNumber
  | integer      => Der.integerNumber
  | enumerated   => Der.enumeratedNumber
  | octetString  => Der.octetStringNumber
  | softwareList => Der.sequenceNumber
  | hardwareList => Der.sequenceNumber

/-- The part in words. -/
def label : Part → String
  | description  => "KeyDescription SEQUENCE"
  | integer      => "INTEGER"
  | enumerated   => "ENUMERATED"
  | octetString  => "OCTET STRING"
  | softwareList => "softwareEnforced AuthorizationList"
  | hardwareList => "teeEnforced AuthorizationList"

end Part

/-- Why a byte string is not a key description. -/
inductive ParseError where
  | element (cause : Element.ReadError)
  | expected (part : Part)
  | unsupportedLength (part : Part)
  | trailingBytes
  | repeatedId (number : UInt32)
  deriving DecidableEq

/-- The wording of a failed reading. -/
def ParseError.message : ParseError → String
  | element cause          => cause.message
  | expected part          => s!"expected {part.label}"
  | unsupportedLength part => s!"{part.label} length unsupported"
  | trailingBytes          => "trailing bytes after KeyDescription"
  | repeatedId number      => s!"attestation id tag [{number.toNat}] appears twice"

/-! ### Parts -/

/-- Reads one element of any kind. -/
def readElement (s : Bytes) : Except ParseError (Element × Bytes) :=
  (Element.read s).mapError .element

/-- Reads one universal element of a part's tag number and gives its content. -/
def readPart (part : Part) (s : Bytes) : Except ParseError (Bytes × Bytes) := do
  let (e, rest) ← readElement s
  if e.tagClass = .universal ∧ e.number = part.number then .ok (e.content, rest)
  else .error (.expected part)

/-- Reads one element that holds a number of at most 64 bits. -/
def readNumber (part : Part) (s : Bytes) : Except ParseError (Int64 × Bytes) := do
  let (content, rest) ← readPart part s
  match Der.Integer.read? content with
  | some n => .ok (n, rest)
  | none   => .error (.unsupportedLength part)

/-! ### Attested identifiers -/

/-- The identifier whose element this is, if it is one's: constructed, of the context class, and
numbered like an identifier. -/
def idOfElement? (e : Element) : Option IdTag :=
  if e.tagClass = .contextSpecific ∧ e.constructed then IdTag.ofNumber? e.number else none

/-- Adds the identifiers among some elements to those already found; an identifier may be found
once only. -/
def collectIds (ids : AttestedIds) : List Element → Except ParseError AttestedIds
  | []      => .ok ids
  | e :: es =>
    match idOfElement? e with
    | none    => collectIds ids es
    | some id => do
      let (value, _) ← readPart .octetString e.content
      if (ids.get? id).isSome then .error (.repeatedId e.number)
      else collectIds (ids.insert id value) es

/-- Adds the identifiers of an authorization list to those already found.  Elements count up to the
first that cannot be read, which then is the failure. -/
def collectList (ids : AttestedIds) (list : Bytes) : Except ParseError AttestedIds := do
  let (es, failure) := Element.scan list
  let ids ← collectIds ids es
  match failure with
  | none       => .ok ids
  | some cause => .error (.element cause)

/-! ### Whole descriptions -/

/-- Reads the parts inside the outer SEQUENCE. -/
def parseBody (s : Bytes) : Except ParseError KeyDescription := do
  let (attestationVersion, s) ← readNumber .integer s
  let (attestationLevel, s) ← readNumber .enumerated s
  let (keymasterVersion, s) ← readNumber .integer s
  let (keymasterLevel, s) ← readNumber .enumerated s
  let (challenge, s) ← readPart .octetString s
  let (uniqueId, s) ← readPart .octetString s
  let (softwareList, s) ← readPart .softwareList s
  let (hardwareList, _) ← readPart .hardwareList s
  -- both lists are whole elements by now; only then are they looked into
  let ids ← collectList .empty softwareList
  let ids ← collectList ids hardwareList
  .ok {
    attestationVersion, keymasterVersion, challenge, uniqueId
    attestationLevel := .ofInt64 attestationLevel
    keymasterLevel := .ofInt64 keymasterLevel
    attestedIds := ids }

/-- Reads a key description that fills a byte string. -/
def parse (s : Bytes) : Except ParseError KeyDescription := do
  let (body, rest) ← readPart .description s
  if rest = [] then parseBody body else .error .trailingBytes

end DeviceAttest.KeyDescription
