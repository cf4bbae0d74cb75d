import DeviceAttest.Bytes

/-!
# Object identifiers

An object identifier is its encoded octets: the first octet holds the first two arcs, every further
arc is a run of base-128 digits.  An arc that the octets end in the middle of counts with the digits
it has, modulo 2^64.
-/

namespace DeviceAttest.X509

/-- The encoded octets of an object identifier. -/
structure Oid where
  octets : Bytes
  deriving DecidableEq

namespace Oid

/-- The arcs after the first two; `cur` holds the digits of the arc at hand, if it has begun. -/
def laterArcs (cur : Option UInt64) : Bytes → List UInt64
  | []     => cur.toList
  | b :: s =>
    let arc := cur.getD 0 * 128 + (b % 128).toUInt64
    if b < 128 then arc :: laterArcs none s else laterArcs (some arc) s

/-- The most octets that a finished arc has; `run` counts those of the arc at hand. -/
def longestArc (run : Nat) : Bytes → Nat
  | []     => 0
  | b :: s => if b < 128 then max (run + 1) (longestArc 0 s) else longestArc (run + 1) s

/-- The arcs; none if some finished arc has more than nine octets. -/
def arcs? (oid : Oid) : Option (List UInt64) :=
  match oid.octets with
  | []         => some []
  | [0]        => some [0]
  | first :: s =>
    if 9 < longestArc 0 s then none
    else some ((first / 40).toUInt64 :: (first % 40).toUInt64 :: laterArcs none s)

/-- The arcs with points between them, or the octets with blanks between them. -/
def text (oid : Oid) : String :=
  match oid.arcs? with
  | some arcs => ".".intercalate (arcs.map fun arc => toString arc.toNat)
  | none      => " ".intercalate (oid.octets.map fun b => Bytes.hex .lower [b])

/-- Identifiers that differ in their last octet, with their short names. -/
def family (common : Bytes) (members : List (UInt8 × String)) : List (Bytes × String) :=
  members.map fun (last, name) => (common ++ [last], name)

/-- The short names of directory attributes; the usual ones are abbreviated. -/
def attributeNames : List (Bytes × String) :=
  family [85, 4]
    [(0, "objectClass"), (1, "aliasedEntryName"), (2, "knowledgeInformation"), (3, "CN"),
     (4, "surname"), (5, "serialNumber"), (6, "C"), (7, "L"), (8, "ST"), (9, "streetAddress"),
     (10, "O"), (11, "OU"), (12, "title"), (13, "description"), (14, "searchGuide"),
     (15, "businessCategory"), (16, "postalAddress"), (17, "postalCode"), (41, "name"),
     (42, "givenName"), (43, "initials"), (44, "generationQualifier"), (45, "uniqueIdentifier"),
     (46, "dnQualifier")]
  ++ family [9, 146, 38, 137, 147, 242, 44, 100, 1] [(1, "uid"), (25, "DC")]
  ++ family [42, 134, 72, 134, 247, 13, 1, 9]
    [(1, "Email"), (2, "unstructuredName"), (3, "contentType"), (7, "challengePassword"),
     (14, "extensionRequest"), (20, "friendlyName")]

/-- The short names of certificate extensions. -/
def extensionNames : List (Bytes × String) :=
  family [85, 29]
    [(9, "subjectDirectoryAttributes"), (14, "subjectKeyIdentifier"), (15, "keyUsage"),
     (16, "privateKeyUsagePeriod"), (17, "subjectAltName"), (18, "issuerAltName"),
     (19, "basicConstraints"), (20, "crlNumber"), (30, "nameConstraints"),
     (31, "crlDistributionPoints"), (32, "certificatePolicies"), (33, "policyMappings"),
     (35, "authorityKeyIdentifier"), (36, "policyConstraints"), (37, "extendedKeyUsage")]

/-- The short names of keys, signatures, curves and digests. -/
def algorithmNames : List (Bytes × String) :=
  family [42, 134, 72, 134, 247, 13, 1, 1]
    [(1, "rsaEncryption"), (5, "sha1WithRSAEncryption"), (11, "sha256WithRSAEncryption"),
     (12, "sha384WithRSAEncryption"), (13, "sha512WithRSAEncryption")]
  ++ family [42, 134, 72, 206, 61, 2] [(1, "id-ecPublicKey")]
  ++ family [42, 134, 72, 206, 61, 3, 1] [(7, "prime256v1")]
  ++ family [42, 134, 72, 206, 61, 4, 3]
    [(2, "ecdsa-with-SHA256"), (3, "ecdsa-with-SHA384"), (4, "ecdsa-with-SHA512")]
  ++ family [96, 134, 72, 1, 101, 3, 4, 2] [(1, "sha256"), (2, "sha384"), (3, "sha512")]

/-- All short names, by the encoded octets. -/
def shortNames : List (Bytes × String) := attributeNames ++ extensionNames ++ algorithmNames

/-- The key under which a name shows an attribute: its short name or else its arcs. -/
def key (oid : Oid) : String :=
  match shortNames.lookup oid.octets with
  | some shortName => shortName
  | none           => s!"OID({oid.text})"

/-- The arcs of the key attestation extension. -/
def keyAttestation : List UInt64 := [1, 3, 6, 1, 4, 1, 11129, 2, 1, 17]

/-- Whether the arcs are those of the key attestation extension. -/
def isKeyAttestation (oid : Oid) : Bool := oid.arcs? == some keyAttestation

end Oid

end DeviceAttest.X509
