import DeviceAttest.Call.Program
import DeviceAttest.Settings.Basic

/-!
# The attestation call

A call collects the requested identifiers and the build metadata, draws an alias, clears what a
keystore may hold under it, generates a temporary key and has it attested, and decodes the chain.
Once the alias is clear the key is deleted at the end, however the call ends.
-/

namespace DeviceAttest

namespace Attest

/-! ### Parameters -/

/-- The size of the temporary key in bits. -/
def keyBits : UInt32 := 2048

/-- The public exponent of the temporary key. -/
def publicExponent : UInt64 := 65537

/-- The parameters of the temporary key, which can be used for nothing else. -/
def temporaryKeyParams : AuthorizationSet :=
  .ofList
    [.purpose .verify, .algorithm .rsa, .padding .none, .digest .none, .noAuthRequired,
     .keySize keyBits, .rsaPublicExponent publicExponent]

/-- A telephony service that is at hand; all that is known of it is that it is there. -/
abbrev TelephonyService : Type := Unit

/-- Makes sure that a telephony service is at hand. -/
def requireService : Option TelephonyService → Attempt TelephonyService :=
  Attempt.require (.identifierUnavailable .telephonyService)

/-- Asks the source for its telephony service. -/
def requireTelephony : Attempt TelephonyService := do
  let available ← Attempt.answer (.query .telephony)
  requireService (if available then some () else none)

/-- Reads one identifier from the source, two of them from its telephony service. -/
def readIdentifier (slot : UInt32) (service : Option TelephonyService) :
    IdentifierType → Attempt String
  | .serial => do
    Attempt.accept .ofSource (← Attempt.answer (.query .serial))
  | .imei   => do
    let _ ← requireService service
    let value ← Attempt.accept .ofSource (← Attempt.answer (.query (.imei slot)))
    Attempt.require (.identifierUnavailable (.identifier .imei)) value
  | .meid   => do
    let _ ← requireService service
    let value ← Attempt.accept .ofSource (← Attempt.answer (.query .meid))
    Attempt.require (.identifierUnavailable (.identifier .meid)) value

/-- Reads identifiers in order and makes parameters of them. -/
def readIdentifiers (slot : UInt32) (service : Option TelephonyService) :
    List IdentifierType → Attempt (List KeyParam)
  | []            => pure []
  | type :: types => do
    let value ← readIdentifier slot service type
    let later ← readIdentifiers slot service types
    pure (.attestationId type.idTag (Bytes.ofText value) :: later)

/-- Collects what is to be attested: the challenge, the identifiers, the build metadata. -/
def collectParams (slot : UInt32) (request : Request) : Attempt AuthorizationSet := do
  let service ← if request.requiresTelephony then some <$> requireTelephony else pure none
  let ids ← readIdentifiers slot service request.identifierTypes
  let build ← Attempt.answer (.query .buildProperties)
  pure (.ofList (.attestationChallenge request.challenge :: (ids ++ build.params)))

/-! ### Chains -/

/-- Reports a fault of the chain as the error of the call. -/
def checkChain {α : Type} (checked : Except ChainFault α) : Attempt α :=
  Attempt.accept .malformedChain checked

/-- Decodes the entries of a raw chain as one stream. -/
def decodeChain (entries : List Bytes) : Attempt Chain := do
  let stream ← checkChain (chainStream entries)
  let decoded ← Attempt.answer (.query (.decode stream))
  let certificates ← checkChain (decoded.mapError .undecodable)
  checkChain (Chain.ofCertificates certificates)

/-! ### Temporary keys -/

/-- Deletes the temporary key at the end of a call.  A refusal is reported and changes nothing else;
a deletion that breaks off is not reported. -/
def releaseKey (key : String) : Program (Except Fault Bool) := do
  let reply ← Program.query (.deleteKey key)
  match reply with
  | .ok true  => Program.tell (.removed key)
  | .ok false => Program.tell (.leftBehind key)
  | .error _  => pure ()
  pure reply

/-- Generates the temporary key, has it attested and decodes the chain. -/
def attestKey (key : String) (params : AuthorizationSet) : Attempt Chain := do
  let generated ← Attempt.answer (.query (.generateKey key temporaryKeyParams))
  let characteristics ← Attempt.accept (.keystore .generate) generated
  Program.tell (.generated key characteristics.hardwareEnforced.size
    characteristics.softwareEnforced.size)
  let attested ← Attempt.answer (.query (.attestKey key params))
  let entries ← Attempt.accept (.keystore .attest) attested
  Program.tell (.attested key entries.length)
  let chain ← decodeChain entries
  Program.tell (.completed key chain.length)
  pure chain

end Attest

/-! ### Calls -/

/-- Attests the requested identifiers with a temporary key. -/
def attest (process : ProcessLabel) (settings : AttestationSettings) (request : Request) :
    Attempt Chain := do
  -- nothing touches the keystore before everything to be attested is at hand
  let params ← Attest.collectParams settings.imeiSlot request
  let number ← Program.drawNumber
  let key := (⟨settings.aliasBase, process, number⟩ : KeyAlias).text
  Program.tell (.clearing key)
  let cleared ← Attempt.answer (.query (.deleteKey key))
  if cleared then (Attest.attestKey key params).ensuring (Attest.releaseKey key)
  else Attempt.fail (.temporaryKeyRemoval key)

/-- Attests the identifiers of a list of codes; an unknown code ends the call before it begins. -/
def attestCodes (process : ProcessLabel) (settings : AttestationSettings) (codes : List Int32)
    (challenge : Bytes) : Attempt Chain :=
  match Request.ofCodes codes challenge with
  | .ok request => attest process settings request
  | .error code => Attempt.fail (.invalidArgument (.unknownIdentifier code))

end DeviceAttest
