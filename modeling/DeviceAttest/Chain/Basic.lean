import DeviceAttest.Chain.Certificate

/-!
# Attestation chains

An attestation chain is at least two certificates, the leaf first.
-/

namespace DeviceAttest

/-- Certificates from the leaf upwards; there are at least two. -/
structure Chain where
  certificates : List Certificate
  two_le_length : ChainFault.minLength ≤ certificates.length

namespace Chain

/-- The chain of some decoded certificates, if there are enough. -/
def ofCertificates (certificates : List Certificate) : Except ChainFault Chain :=
  if h : ChainFault.minLength ≤ certificates.length then .ok ⟨certificates, h⟩
  else .error (.tooFewCertificates certificates.length)

/-- The certificate of the attested key. -/
def leaf (c : Chain) : Certificate :=
  c.certificates.get ⟨0, Nat.lt_of_lt_of_le (by decide) c.two_le_length⟩

/-- How many certificates the chain has. -/
def length (c : Chain) : Nat := c.certificates.length

/-- Whether the chain has no certificate. -/
def isEmpty (c : Chain) : Bool := c.certificates.isEmpty

/-- The certificates, the leaf first. -/
def toList (c : Chain) : List Certificate := c.certificates

/-- No chain is empty. -/
theorem isEmpty_eq_false (c : Chain) : c.isEmpty = false := by
  have h := c.two_le_length
  unfold isEmpty
  cases hc : c.certificates with
  | nil => rw [hc] at h; cases h
  | cons => rfl

end Chain

/-- The stream that the entries of a raw chain make, if there are enough entries for a chain. -/
def chainStream (entries : List Bytes) : Except ChainFault Bytes :=
  if entries.length < ChainFault.minLength then .error (.tooFewEntries entries.length)
  else .ok entries.flatten

end DeviceAttest
