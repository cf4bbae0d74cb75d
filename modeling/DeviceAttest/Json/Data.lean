import DeviceAttest.Device
import DeviceAttest.Identifier
import DeviceAttest.Json.Form
import DeviceAttest.Key.Status
import DeviceAttest.KeyDescription.Basic
import DeviceAttest.Settings.Basic

/-!
# JSON forms of the data types

The form of every type of this library that documents hold.  Fields are written in the order of
their declaration, sets and maps in the order of their members.  Settings take standard values for
fields that are not given; all other records must be complete.
-/

namespace DeviceAttest

open JsonForm

/-! ### Alternatives -/

instance : JsonForm IdentifierType := .ofNamed _

instance : JsonForm Tag := .ofNamed _

instance : JsonForm IdTag := .ofNamed _

instance : JsonForm KeyPurpose := .ofNamed _

instance : JsonForm Algorithm := .ofNamed _

instance : JsonForm PaddingMode := .ofNamed _

instance : JsonForm Digest := .ofNamed _

instance : JsonForm LogFormat := .ofNamed _

instance : JsonForm StatusCode where
  toJson code := toJson code.raw
  ofJson? j := (ofJson? j).map StatusCode.mk

instance : JsonForm SecurityLevel where
  toJson
    | .software           => .ofText "Software"
    | .trustedEnvironment => .ofText "TrustedEnvironment"
    | .strongBox          => .ofText "StrongBox"
    | .unknown level      => .tagged "Unknown" (toJson level)
  ofJson? j := do
    let (name, payload) ← j.alternative?
    match name, payload with
    | "Unknown", some level => (ofJson? level).map .unknown
    | _, _                  =>
      if ¬ Json.isBare payload then none
      else if name = "Software" then some .software
      else if name = "TrustedEnvironment" then some .trustedEnvironment
      else if name = "StrongBox" then some .strongBox
      else none

/-- Reads an attested identifier: its tag and its bytes. -/
def KeyParam.attestationId? : Json → Option KeyParam
  | .array [id, value] => do
    let id ← ofJson? id
    let value ← ofJson? value
    some (.attestationId id value)
  | _                  => none

instance : JsonForm KeyParam where
  toJson
    | .purpose value                  => .tagged "Purpose" (toJson value)
    | .algorithm value                => .tagged "Algorithm" (toJson value)
    | .keySize bits                   => .tagged "KeySize" (toJson bits)
    | .digest value                   => .tagged "Digest" (toJson value)
    | .padding value                  => .tagged "Padding" (toJson value)
    | .rsaPublicExponent exponent     => .tagged "RsaPublicExponent" (toJson exponent)
    | .noAuthRequired                 => .ofText "NoAuthRequired"
    | .attestationChallenge challenge => .tagged "AttestationChallenge" (toJson challenge)
    | .attestationId id value         =>
      .tagged "AttestationId" (.array [toJson id, toJson value])
  ofJson? j := do
    let (name, payload) ← j.alternative?
    if name = "NoAuthRequired" then
      if Json.isBare payload then some .noAuthRequired else none
    else
      let payload ← payload
      match name with
      | "Purpose"              => (ofJson? payload).map .purpose
      | "Algorithm"            => (ofJson? payload).map .algorithm
      | "KeySize"              => (ofJson? payload).map .keySize
      | "Digest"               => (ofJson? payload).map .digest
      | "Padding"              => (ofJson? payload).map .padding
      | "RsaPublicExponent"    => (ofJson? payload).map .rsaPublicExponent
      | "AttestationChallenge" => (ofJson? payload).map .attestationChallenge
      | "AttestationId"        => KeyParam.attestationId? payload
      | _                      => none

/-! ### Records -/

instance : JsonForm Request where
  toJson r :=
    .ofMembers [("id_types", toJson r.identifierTypes), ("challenge", toJson r.challenge)]
  ofJson? j := do
    match ← j.fields? ["id_types", "challenge"] with
    | [types, challenge] =>
      let types ← Json.required? types
      let challenge ← Json.required? challenge
      some (.ofTypes types challenge)
    | _ => none

instance : JsonForm AuthorizationSet where
  toJson s := .ofMembers [("params", toJson s.params)]
  ofJson? j := do
    match ← j.fields? ["params"] with
    | [params] => (Json.required? params).map AuthorizationSet.mk
    | _        => none

instance : JsonForm KeyCharacteristics where
  toJson c :=
    .ofMembers
      [("hardware_enforced", toJson c.hardwareEnforced),
       ("software_enforced", toJson c.softwareEnforced)]
  ofJson? j := do
    match ← j.fields? ["hardware_enforced", "software_enforced"] with
    | [hardware, software] =>
      let hardware ← Json.required? hardware
      let software ← Json.required? software
      some ⟨hardware, software⟩
    | _ => none

/-- Reads one attested identifier that is a member of an object. -/
def AttestedIds.entry? (member : JsonText × Json) : Option (IdTag × Bytes) := do
  let id ← Named.ofName? (← member.1)
  let value ← ofJson? member.2
  some (id, value)

instance : JsonForm AttestedIds where
  toJson ids := .ofMembers (ids.toList.map fun (id, value) => (Named.name id, toJson value))
  ofJson?
    | .object members => (members.mapM AttestedIds.entry?).map AttestedIds.ofList
    | _               => none

instance : JsonForm KeyDescription where
  toJson d :=
    .ofMembers
      [("attestation_version", toJson d.attestationVersion),
       ("attestation_security_level", toJson d.attestationLevel),
       ("keymaster_version", toJson d.keymasterVersion),
       ("keymaster_security_level", toJson d.keymasterLevel),
       ("attestation_challenge", toJson d.challenge),
       ("unique_id", toJson d.uniqueId),
       ("attested_ids", toJson d.attestedIds)]
  ofJson? j := do
    match ← j.fields?
      ["attestation_version", "attestation_security_level", "keymaster_version",
       "keymaster_security_level", "attestation_challenge", "unique_id", "attested_ids"] with
    | [attestationVersion, attestationLevel, keymasterVersion, keymasterLevel, challenge, uniqueId,
       attestedIds] =>
      let attestationVersion ← Json.required? attestationVersion
      let attestationLevel ← Json.required? attestationLevel
      let keymasterVersion ← Json.required? keymasterVersion
      let keymasterLevel ← Json.required? keymasterLevel
      let challenge ← Json.required? challenge
      let uniqueId ← Json.required? uniqueId
      let attestedIds ← Json.required? attestedIds
      some ⟨attestationVersion, attestationLevel, keymasterVersion, keymasterLevel, challenge,
        uniqueId, attestedIds⟩
    | _ => none

instance : JsonForm BuildProperties where
  toJson b :=
    .ofMembers
      [("brand", toJson b.brand), ("device", toJson b.device), ("product", toJson b.product),
       ("manufacturer", toJson b.manufacturer), ("model", toJson b.model)]
  ofJson? j := do
    match ← j.fields? ["brand", "device", "product", "manufacturer", "model"] with
    | [brand, device, product, manufacturer, model] =>
      let brand ← Json.required? brand
      let device ← Json.required? device
      let product ← Json.required? product
      let manufacturer ← Json.required? manufacturer
      let model ← Json.required? model
      some ⟨brand, device, product, manufacturer, model⟩
    | _ => none

/-! ### Settings -/

instance : JsonForm AttestationSettings where
  toJson s := .ofMembers [("alias_prefix", toJson s.aliasBase), ("imei_slot", toJson s.imeiSlot)]
  ofJson? j := do
    match ← j.fields? ["alias_prefix", "imei_slot"] with
    | [aliasBase, imeiSlot] =>
      let aliasBase ← Json.optional? AttestationSettings.standard.aliasBase aliasBase
      let imeiSlot ← Json.optional? AttestationSettings.standard.imeiSlot imeiSlot
      some ⟨aliasBase, imeiSlot⟩
    | _ => none

instance : JsonForm LoggingSettings where
  toJson s := .ofMembers [("format", toJson s.format), ("level", toJson s.level)]
  ofJson? j := do
    match ← j.fields? ["format", "level"] with
    | [format, level] =>
      let format ← Json.optional? LoggingSettings.standard.format format
      let level ← Json.optional? LoggingSettings.standard.level level
      some ⟨format, level⟩
    | _ => none

instance : JsonForm Settings where
  toJson s := .ofMembers [("attestation", toJson s.attestation), ("logging", toJson s.logging)]
  ofJson? j := do
    match ← j.fields? ["attestation", "logging"] with
    | [attestation, logging] =>
      let attestation ← Json.optional? AttestationSettings.standard attestation
      let logging ← Json.optional? LoggingSettings.standard logging
      some ⟨attestation, logging⟩
    | _ => none

end DeviceAttest
