import DeviceAttest.KeyDescription.Parse

/-!
# What may be wrong with a chain

A decoder fails on an empty stream, or at the offset where no certificate begins.  A chain is
malformed if it is too short, before or after decoding, if it cannot be decoded, or if the
extension of one of its certificates is missing or malformed.
-/

namespace DeviceAttest

/-- Why a stream is not a sequence of certificates. -/
inductive DecodeError where
  | empty
  | parse (offset : Nat) (reason : String)
  deriving DecidableEq

/-- The wording of a decoder's failure. -/
def DecodeError.message : DecodeError → String
  | empty               => "empty certificate stream"
  | parse offset reason => s!"X.509 parse failure at offset {offset}: {reason}"

/-- Why a chain is malformed. -/
inductive ChainFault where
  | tooFewEntries (count : Nat)
  | undecodable (cause : DecodeError)
  | tooFewCertificates (count : Nat)
  | missingExtension
  | malformedExtension (cause : KeyDescription.ParseError)
  | stated (text : String)
  deriving DecidableEq

namespace ChainFault

/-- The fewest certificates of a chain: a leaf and its issuer. -/
def minLength : Nat := 2

/-- The wording of a fault. -/
def message : ChainFault → String
  | tooFewEntries count      =>
    s!"Attestation certificate chain contained {count} entries. At least two are required."
  | undecodable cause        => s!"Unable to construct certificate chain: {cause.message}"
  | tooFewCertificates count =>
    s!"decoded chain contained {count} certificates; at least {minLength} are required"
  | missingExtension         => "missing key attestation extension"
  | malformedExtension cause => s!"malformed key attestation extension: {cause.message}"
  | stated text              => text

end ChainFault

end DeviceAttest
