/-!
# Keystore statuses

A keystore answers with a 32-bit status.  Zero is success; every other status is a failure with a
description.  `StatusCode.new?` and `StatusCode.check` keep success out, but the type itself holds
any status, for a status that a document states is taken as it stands.
-/

namespace DeviceAttest

/-- A status that a keystore answered in place of a result. -/
structure StatusCode where
  raw : Int32
  deriving DecidableEq

namespace StatusCode

/-- The status of success. -/
def success : Int32 := 0

/-- The failure that a status stands for; success stands for none. -/
def new? (raw : Int32) : Option StatusCode := if raw = success then none else some ⟨raw⟩

/-- Success, or the failure that a status stands for. -/
def check (raw : Int32) : Except StatusCode Unit :=
  match new? raw with
  | none      => .ok ()
  | some code => .error code

/-- The status of an operation on a key that does not exist. -/
def keyNotFound : StatusCode := ⟨7⟩

/-- The failures that have a name. -/
inductive Known where
  | locked | uninitialized | systemError | permissionDenied | keyNotFound | valueCorrupted
  | opAuthNeeded
  | unsupportedPurpose | unsupportedAlgorithm | unsupportedKeySize | unsupportedPaddingMode
  | unsupportedDigest | invalidKeyBlob | invalidArgument | unsupportedTag | cannotAttestIds
  | unknownError
  deriving DecidableEq

/-- The status of a failure that has a name. -/
def Known.status : Known → StatusCode
  | locked                 => ⟨2⟩
  | uninitialized          => ⟨3⟩
  | systemError            => ⟨4⟩
  | permissionDenied       => ⟨6⟩
  | keyNotFound            => StatusCode.keyNotFound
  | valueCorrupted         => ⟨8⟩
  | opAuthNeeded           => ⟨15⟩
  | unsupportedPurpose     => ⟨-2⟩
  | unsupportedAlgorithm   => ⟨-4⟩
  | unsupportedKeySize     => ⟨-6⟩
  | unsupportedPaddingMode => ⟨-10⟩
  | unsupportedDigest      => ⟨-12⟩
  | invalidKeyBlob         => ⟨-28⟩
  | invalidArgument        => ⟨-38⟩
  | unsupportedTag         => ⟨-58⟩
  | cannotAttestIds        => ⟨-66⟩
  | unknownError           => ⟨-1000⟩

/-- What a status means. -/
def description (code : StatusCode) : String :=
  match code.raw.toInt with
  | 2   => "keystore locked"
  | 3   => "keystore not initialized"
  | 4   => "system error"
  | 6   => "permission denied"
  | 7   => "key not found"
  | 8   => "key blob corrupted"
  | 15  => "operation requires authorization"
  | -2  => "unsupported key purpose"
  | -4  => "unsupported key algorithm"
  | -6  => "unsupported key size"
  | -10 => "unsupported padding mode"
  | -12 => "unsupported digest"
  | -28 => "invalid key blob"
  | -38 => "invalid argument"
  | -58 => "unsupported tag"
  | -66 => "device does not support id attestation"
  | _   => "unknown error"

/-- The description with the raw status after it. -/
def message (code : StatusCode) : String := s!"{code.description} ({code.raw.toInt})"

end StatusCode

end DeviceAttest
