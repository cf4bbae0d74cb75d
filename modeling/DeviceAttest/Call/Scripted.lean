import DeviceAttest.Call.Attest

/-!
# Scripted collaborators

Collaborators that act by a script: a device with fixed identifiers that may deny a read, a keystore
that remembers which keys it holds, and a decoder.  They rehearse a call under any conditions.
-/

namespace DeviceAttest

/-- A question that a script may leave without an answer. -/
inductive FaultPoint where
  | serial | generate | attest
  deriving DecidableEq

/-- How a scripted decoder acts. -/
inductive ScriptedDecoder where
  | x509
  | faulty
  | empty
  | parse (offset : Nat) (reason : String)
  | reversed
  | firstOnly
  | nothing
  deriving DecidableEq

/-- Answers of a scripted decoder. -/
def ScriptedDecoder.decode (d : ScriptedDecoder) (stream : Bytes) :
    Except Fault (Except DecodeError (List Certificate)) :=
  let certificates := CertificateReader.x509.decode stream
  match d with
  | x509                => .ok certificates
  | faulty              => .error ⟨"decoder fault"⟩
  | empty               => .ok (.error .empty)
  | parse offset reason => .ok (.error (.parse offset reason))
  | reversed            => .ok (certificates.map List.reverse)
  | firstOnly           => .ok (certificates.map (List.take 1))
  | nothing             => .ok (.ok [])

/-- What the collaborators of one call do. -/
structure Script where
  device : Device
  serialDenial : Option String
  imeiDenial : Option String
  meidDenial : Option String
  fault : Option FaultPoint
  generateStatus : Int32
  generateLeavesKey : Bool
  characteristics : KeyCharacteristics
  attestStatus : Int32
  chain : List Bytes
  decoder : ScriptedDecoder
  deriving DecidableEq

/-- A script by which nothing goes wrong. -/
def Script.new (device : Device) (chain : List Bytes) : Script where
  device := device
  serialDenial := none
  imeiDenial := none
  meidDenial := none
  fault := none
  generateStatus := StatusCode.success
  generateLeavesKey := false
  characteristics := ⟨.empty, .empty⟩
  attestStatus := StatusCode.success
  chain := chain
  decoder := .x509

/-- What a scripted keystore remembers: the keys it holds, by alias and in the order in which they
came, and its next answers to deletions, which are consents once the list is used up. -/
structure ScriptedStore where
  resident : List String
  deletions : List Bool
  deriving DecidableEq

namespace ScriptedStore

/-- Answers a deletion; only consent removes the key. -/
def delete (s : ScriptedStore) (key : String) : Bool × ScriptedStore :=
  let consent := s.deletions.headD true
  (consent,
    { resident := if consent then s.resident.filter (· ≠ key) else s.resident
      deletions := s.deletions.tail })

/-- Holds one more key. -/
def store (s : ScriptedStore) (key : String) : ScriptedStore :=
  if key ∈ s.resident then s else { s with resident := s.resident ++ [key] }

end ScriptedStore

namespace Script

/-- A read that is denied if the script has a reason for it. -/
def read {α : Type} (denial : Option String) (value : α) : Except SourceError α :=
  match denial with
  | some reason => .error (.permissionDenied reason)
  | none        => .ok value

/-- Answers a generation.  The key may be held even if the generation fails. -/
def generate (c : Script) (s : ScriptedStore) (key : String) :
    Except Fault (Except StatusCode KeyCharacteristics) × ScriptedStore :=
  let verdict := StatusCode.check c.generateStatus
  let stored := if verdict.toBool ∨ c.generateLeavesKey then s.store key else s
  if c.fault = some .generate then (.error ⟨"generate fault"⟩, stored)
  else (.ok (verdict.map fun _ => c.characteristics), stored)

/-- Answers an attestation; a key that is not held cannot be attested. -/
def attest (c : Script) (s : ScriptedStore) (key : String) :
    Except Fault (Except StatusCode (List Bytes)) :=
  if c.fault = some .attest then .error ⟨"attest fault"⟩
  else if key ∉ s.resident then .ok (.error .keyNotFound)
  else .ok ((StatusCode.check c.attestStatus).map fun _ => c.chain)

/-- Answers a question by the script. -/
def reply (c : Script) : (q : Query) → ScriptedStore → q.Reply × ScriptedStore
  | .telephony, s         => (.ok c.device.telephonyAvailable, s)
  | .serial, s            =>
    (if c.fault = some .serial then .error ⟨"serial fault"⟩
     else .ok (read c.serialDenial c.device.serial), s)
  | .imei slot, s         => (.ok (read c.imeiDenial (c.device.imei? slot)), s)
  | .meid, s              => (.ok (read c.meidDenial c.device.meid), s)
  | .buildProperties, s   => (.ok c.device.properties, s)
  | .deleteKey key, s     => let (consent, s') := s.delete key; (.ok consent, s')
  | .generateKey key _, s => c.generate s key
  | .attestKey key _, s   => (c.attest s key, s)
  | .decode stream, s     => (c.decoder.decode stream, s)

/-- The collaborators that act by a script. -/
def collaborators (c : Script) : Collaborators ScriptedStore := ⟨c.reply⟩

end Script

end DeviceAttest
