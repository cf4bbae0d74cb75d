import DeviceAttest.Failure
import DeviceAttest.X509.Certificate

/-!
# Streams of certificates

A stream is certificates one after the other.  `CertificateReader.decode` splits it over any reader
that takes one certificate off the front of a byte string and leaves a proper suffix; the default
reader is `CertificateReader.x509`.
-/

namespace DeviceAttest

/-- What a caller sees of a certificate. -/
structure CertificateFields where
  subject : String
  issuer : String
  serial : String
  extension : Option Bytes
  deriving DecidableEq

/-- A certificate of a stream: its octets and its fields. -/
structure Certificate where
  der : Bytes
  fields : CertificateFields
  deriving DecidableEq

/-- What the attestation extension of a certificate says. -/
def Certificate.keyDescription (c : Certificate) : Except AttestationError KeyDescription :=
  match c.fields.extension with
  | none         => .error (.malformedChain .missingExtension)
  | some payload =>
    (KeyDescription.parse payload).mapError fun cause => .malformedChain (.malformedExtension cause)

/-! ### Readers -/

/-- A reader of single certificates, with the reason of a failure: on success a proper suffix of
the input is left. -/
structure CertificateReader where
  read : Bytes → Except String (CertificateFields × Bytes)
  suffix_of_read {s r : Bytes} {c : CertificateFields} :
    read s = .ok (c, r) → r.length < s.length ∧ r <:+ s

namespace CertificateReader

/-- The fields of an X.509 certificate in words. -/
def fieldsOf (c : X509.Certificate) : CertificateFields where
  subject := c.subject.text
  issuer := c.issuer.text
  serial := Bytes.hex .lower c.serial
  extension := c.attestation

/-- The reason given for octets that are no X.509 certificate. -/
def notX509 : String := "<x509>"

/-- Reads one X.509 certificate. -/
def readX509 (s : Bytes) : Except String (CertificateFields × Bytes) :=
  match X509.Certificate.read s with
  | none           => .error notX509
  | some (c, rest) => .ok (fieldsOf c, rest)

/-- The reader of X.509 certificates. -/
def x509 : CertificateReader where
  read := readX509
  suffix_of_read {s r c} h := by
    unfold readX509 at h
    split at h
    · cases h
    · next hc =>
      obtain ⟨_, rfl⟩ := Prod.mk.inj (Except.ok.inj h)
      exact X509.Certificate.suffix_of_read hc

/-! ### Decoding -/

/-- Splits a byte string that stands at an offset of the stream into certificates. -/
def split (reader : CertificateReader) (offset : Nat) (s : Bytes) :
    Except DecodeError (List Certificate) :=
  if s = [] then .ok []
  else match h : reader.read s with
    | .error reason      => .error (.parse offset reason)
    | .ok (fields, rest) => do
      have := (reader.suffix_of_read h).1
      let consumed := s.length - rest.length
      let later ← split reader (offset + consumed) rest
      .ok (⟨s.take consumed, fields⟩ :: later)
termination_by s.length

/-- The certificates of a stream, in order. -/
def decode (reader : CertificateReader) (stream : Bytes) : Except DecodeError (List Certificate) :=
  if stream = [] then .error .empty else split reader 0 stream

end CertificateReader

end DeviceAttest
