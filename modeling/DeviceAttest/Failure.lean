import DeviceAttest.Chain.Fault
import DeviceAttest.Identifier
import DeviceAttest.Key.Status

/-!
# Failures of an attestation

Every failed call gives one `AttestationError`, whose cause says what failed and whose message says
it in words.  A call may also end because a collaborator faulted, that is, broke off without an
answer, and the whole process ends if another one does so while the first fault is being dealt with;
`Failure` has all three.
-/

namespace DeviceAttest

/-- Why a source does not give an identifier. -/
inductive SourceError where
  | permissionDenied (reason : String)
  deriving DecidableEq

/-- The wording of a source's failure. -/
def SourceError.message : SourceError → String
  | permissionDenied reason => s!"permission denied: {reason}"

/-- What a source did not have. -/
inductive Unavailable where
  | telephonyService
  | identifier (type : IdentifierType)
  deriving DecidableEq

/-- What is missing, in words. -/
def Unavailable.label : Unavailable → String
  | telephonyService => "telephony service"
  | identifier type  => type.label

/-- What a keystore was asked to do. -/
inductive KeystoreOperation where
  | generate | attest
  deriving DecidableEq

/-- The operation in words. -/
def KeystoreOperation.label : KeystoreOperation → String
  | generate => "create temporary key"
  | attest   => "perform attestation"

/-- Why an argument is not usable. -/
inductive ArgumentFault where
  | unknownIdentifier (code : Int32)
  | stated (text : String)
  deriving DecidableEq

/-- The wording of an unusable argument. -/
def ArgumentFault.message : ArgumentFault → String
  | unknownIdentifier code => s!"Unknown device ID type {code.toInt}"
  | stated text            => text

/-- Why a call gave no chain. -/
inductive AttestationError where
  | permissionDenied (reason : String)
  | invalidArgument (fault : ArgumentFault)
  | identifierUnavailable (what : Unavailable)
  | temporaryKeyRemoval (key : String)
  | keystore (operation : KeystoreOperation) (code : StatusCode)
  | malformedChain (fault : ChainFault)
  deriving DecidableEq

namespace AttestationError

/-- The wording of an error. -/
def message : AttestationError → String
  | permissionDenied reason    => s!"Permission denied: {reason}"
  | invalidArgument fault      => s!"Invalid argument: {fault.message}"
  | identifierUnavailable what => s!"Unable to retrieve {what.label}"
  | temporaryKeyRemoval key  => s!"Unable to remove temporary key '{key}'"
  | keystore operation code    => s!"Unable to {operation.label}: {code.message}"
  | malformedChain fault       => s!"Malformed attestation chain: {fault.message}"

/-- The status that a keystore gave, if the error stems from one. -/
def statusCode? : AttestationError → Option StatusCode
  | keystore _ code => some code
  | _               => none

/-- A denial by the source is passed on with its reason. -/
def ofSource : SourceError → AttestationError
  | .permissionDenied reason => permissionDenied reason

end AttestationError

/-- How a call ends that gives no chain. -/
inductive Failure where
  | error (cause : AttestationError)
  | fault (text : String)
  | aborted
  deriving DecidableEq

end DeviceAttest
