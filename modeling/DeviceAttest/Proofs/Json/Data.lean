import DeviceAttest.Json.Data
import DeviceAttest.Proofs.Json.Form
import DeviceAttest.Proofs.KeyDescription.RoundTrip

/-!
# Documents settle

Every type of data has a lawful form: its values are read back from the documents that are written
for them.  What a document may spell in several ways is read by its `document`: the identifiers of a
request in any order and number (`Request.ofJson?_document`), the entries of a map likewise, of
which the last one of each tag counts (`AttestedIds.ofJson?_document`), and settings of which any
are left out (`Settings.Given.ofJson?_document`).  So rewriting a document settles at once
(`JsonForm.Settles`), and in which form is told by `documents_settle`.
-/

namespace DeviceAttest

open JsonForm

/-! ### Alternatives -/

instance : LawfulJsonForm IdentifierType := .ofNamed _

instance : LawfulJsonForm IdTag := .ofNamed _

instance : LawfulJsonForm KeyPurpose := .ofNamed _

instance : LawfulJsonForm Algorithm := .ofNamed _

instance : LawfulJsonForm PaddingMode := .ofNamed _

instance : LawfulJsonForm Digest := .ofNamed _

instance : LawfulJsonForm LogFormat := .ofNamed _

instance : LawfulJsonForm SecurityLevel where
  ofJson?_toJson level := by
    cases level with
    | unknown level => exact map_ofJson?_toJson SecurityLevel.unknown level
    | _ => rfl

instance : LawfulJsonForm KeyParam where
  ofJson?_toJson p := by
    cases p with
    | purpose value => exact map_ofJson?_toJson KeyParam.purpose value
    | algorithm value => exact map_ofJson?_toJson KeyParam.algorithm value
    | keySize bits => exact map_ofJson?_toJson KeyParam.keySize bits
    | digest value => exact map_ofJson?_toJson KeyParam.digest value
    | padding value => exact map_ofJson?_toJson KeyParam.padding value
    | rsaPublicExponent exponent => exact map_ofJson?_toJson KeyParam.rsaPublicExponent exponent
    | noAuthRequired => rfl
    | attestationChallenge value => exact map_ofJson?_toJson KeyParam.attestationChallenge value
    | attestationId id value =>
      show (ofJson? (toJson id)).bind (fun id => (ofJson? (toJson value)).bind _) = _
      rw [ofJson?_toJson, Option.bind_some, ofJson?_toJson]
      rfl

/-! ### Sets of identifiers -/

namespace Request

/-- The object of a request, its identifiers listed in any way. -/
def document (types : List IdentifierType) (challenge : Bytes) : Json :=
  .ofMembers [("id_types", toJson types), ("challenge", toJson challenge)]

theorem ofJson?_document (types : List IdentifierType) (challenge : Bytes) :
    ofJson? (document types challenge) = some (ofTypes types challenge) := by
  have hfields : (document types challenge).fields? ["id_types", "challenge"] =
      some [some (toJson types), some (toJson challenge)] := Json.fields?_ofMembers rfl (by decide)
  simp only [ofJson?, hfields, Json.required?_toJson, Option.bind_eq_bind, Option.bind_some]

/-- The identifiers of a list are listed in their order, each of them once. -/
theorem identifierTypes_ofTypes (types : List IdentifierType) (challenge : Bytes) :
    (ofTypes types challenge).identifierTypes = Named.all.filter (· ∈ types) := by
  refine List.filter_congr fun type _ => ?_
  rw [ofTypes, Bool.eq_iff_iff, IdentifierSet.contains_ofList, decide_eq_true_iff]

/-- A request is the one for its identifiers. -/
theorem ofTypes_identifierTypes (r : Request) : ofTypes r.identifierTypes r.challenge = r := by
  obtain ⟨⟨serial, imei, meid⟩, challenge⟩ := r
  cases serial <;> cases imei <;> cases meid <;> rfl

end Request

instance : LawfulJsonForm Request where
  ofJson?_toJson r := (Request.ofJson?_document r.identifierTypes r.challenge).trans
    (congrArg some r.ofTypes_identifierTypes)

/-! ### Maps of attested identifiers -/

namespace AttestedIds

/-- The object of entries in any order, with repetitions or without. -/
def document (entries : List (IdTag × Bytes)) : Json :=
  .ofMembers (entries.map fun (id, value) => (Named.name id, toJson value))

theorem ofJson?_document (entries : List (IdTag × Bytes)) :
    ofJson? (document entries) = some (ofList entries) := by
  have hentry : ∀ entry ∈ entries,
      entry? (some (Named.name entry.1), toJson entry.2) = some entry := by
    intro (id, value) _
    show (Named.ofName? (Named.name id)).bind (fun id => (ofJson? (toJson value)).bind _) = _
    rw [Named.ofName?_name, Option.bind_some, ofJson?_toJson]
    rfl
  show (List.mapM entry? (List.map _ (List.map _ entries))).map ofList = _
  rw [List.map_map]
  exact congrArg (Option.map ofList) ((mapM_map_of_forall hentry).trans (by rw [List.map_id']))

/-- Of several entries of a tag, the last one counts. -/
theorem get?_ofList_eq_lookup (entries : List (IdTag × Bytes)) (id : IdTag) :
    (ofList entries).get? id = entries.reverse.lookup id := by
  rw [ofList, List.foldl_eq_foldr_reverse]
  induction entries.reverse with
  | nil => exact get?_empty id
  | cons entry entries ih =>
    rw [List.foldr_cons, get?_insert, ih]
    by_cases h : entry.1 = id
    · rw [if_pos h, List.lookup_cons, beq_iff_eq.mpr h.symm]
    · rw [if_neg h, List.lookup_cons, beq_eq_false_iff_ne.mpr (Ne.symm h)]

end AttestedIds

instance : LawfulJsonForm AttestedIds where
  ofJson?_toJson ids := (AttestedIds.ofJson?_document ids.toList).trans
    (congrArg some ids.ofList_toList)

/-! ### Complete records -/

namespace KeyDescription

/-- The object of a description, with the given entries for its identifiers. -/
def document (d : KeyDescription) (entries : List (IdTag × Bytes)) : Json :=
  .ofMembers
    [("attestation_version", toJson d.attestationVersion),
     ("attestation_security_level", toJson d.attestationLevel),
     ("keymaster_version", toJson d.keymasterVersion),
     ("keymaster_security_level", toJson d.keymasterLevel),
     ("attestation_challenge", toJson d.challenge), ("unique_id", toJson d.uniqueId),
     ("attested_ids", AttestedIds.document entries)]

theorem ofJson?_document (d : KeyDescription) (entries : List (IdTag × Bytes)) :
    ofJson? (d.document entries) = some { d with attestedIds := .ofList entries } := by
  have hfields : (d.document entries).fields?
      ["attestation_version", "attestation_security_level", "keymaster_version",
       "keymaster_security_level", "attestation_challenge", "unique_id", "attested_ids"] =
      some [some (toJson d.attestationVersion), some (toJson d.attestationLevel),
        some (toJson d.keymasterVersion), some (toJson d.keymasterLevel),
        some (toJson d.challenge), some (toJson d.uniqueId),
        some (AttestedIds.document entries)] := Json.fields?_ofMembers rfl (by decide)
  have hids : Json.required? (some (AttestedIds.document entries)) =
      some (AttestedIds.ofList entries) := AttestedIds.ofJson?_document entries
  simp only [ofJson?, hfields, hids, Json.required?_toJson, Option.bind_eq_bind, Option.bind_some]

end KeyDescription

instance : LawfulJsonForm KeyDescription where
  ofJson?_toJson d := (d.ofJson?_document d.attestedIds.toList).trans
    (congrArg (fun ids => some { d with attestedIds := ids }) d.attestedIds.ofList_toList)

instance : LawfulJsonForm AuthorizationSet where
  ofJson?_toJson s := by
    have hfields : (toJson s).fields? ["params"] = some [some (toJson s.params)] :=
      Json.fields?_ofMembers rfl (by decide)
    simp only [ofJson?, hfields, Json.required?_toJson, Option.bind_eq_bind, Option.bind_some,
      Option.map_some]

instance : LawfulJsonForm KeyCharacteristics where
  ofJson?_toJson c := by
    have hfields : (toJson c).fields? ["hardware_enforced", "software_enforced"] =
        some [some (toJson c.hardwareEnforced), some (toJson c.softwareEnforced)] :=
      Json.fields?_ofMembers rfl (by decide)
    simp only [ofJson?, hfields, Json.required?_toJson, Option.bind_eq_bind, Option.bind_some]

instance : LawfulJsonForm BuildProperties where
  ofJson?_toJson b := by
    have hfields : (toJson b).fields? ["brand", "device", "product", "manufacturer", "model"] =
        some [some (toJson b.brand), some (toJson b.device), some (toJson b.product),
          some (toJson b.manufacturer), some (toJson b.model)] :=
      Json.fields?_ofMembers rfl (by decide)
    simp only [ofJson?, hfields, Json.required?_toJson, Option.bind_eq_bind, Option.bind_some]

/-! ### Settings with standard values -/

namespace AttestationSettings

/-- The object of the settings of attestation that are given. -/
def document (aliasBase : Option String) (imeiSlot : Option UInt32) : Json :=
  .ofFields [("alias_prefix", aliasBase.map toJson), ("imei_slot", imeiSlot.map toJson)]

theorem ofJson?_document (aliasBase : Option String) (imeiSlot : Option UInt32) :
    ofJson? (document aliasBase imeiSlot) =
      some (mk (aliasBase.getD standard.aliasBase) (imeiSlot.getD standard.imeiSlot)) := by
  have hfields : (document aliasBase imeiSlot).fields? ["alias_prefix", "imei_slot"] =
      some [aliasBase.map toJson, imeiSlot.map toJson] := Json.fields?_ofFields rfl (by decide)
  simp only [ofJson?, hfields, Json.optional?_map_toJson, Option.bind_eq_bind, Option.bind_some]

end AttestationSettings

instance : LawfulJsonForm AttestationSettings where
  ofJson?_toJson s := AttestationSettings.ofJson?_document (some s.aliasBase) (some s.imeiSlot)

namespace LoggingSettings

/-- The object of the settings of logging that are given. -/
def document (format : Option LogFormat) (level : Option String) : Json :=
  .ofFields [("format", format.map toJson), ("level", level.map toJson)]

theorem ofJson?_document (format : Option LogFormat) (level : Option String) :
    ofJson? (document format level) =
      some (mk (format.getD standard.format) (level.getD standard.level)) := by
  have hfields : (document format level).fields? ["format", "level"] =
      some [format.map toJson, level.map toJson] := Json.fields?_ofFields rfl (by decide)
  simp only [ofJson?, hfields, Json.optional?_map_toJson, Option.bind_eq_bind, Option.bind_some]

end LoggingSettings

instance : LawfulJsonForm LoggingSettings where
  ofJson?_toJson s := LoggingSettings.ofJson?_document (some s.format) (some s.level)

namespace Settings

/-- What is given of all settings: of each table, if there is one, some fields. -/
structure Given where
  attestation : Option (Option String × Option UInt32)
  logging : Option (Option LogFormat × Option String)

namespace Given

/-- The table of attestation. -/
def attestationTable (given : Given) : Option Json :=
  given.attestation.map fun fields => AttestationSettings.document fields.1 fields.2

/-- The table of logging. -/
def loggingTable (given : Given) : Option Json :=
  given.logging.map fun fields => LoggingSettings.document fields.1 fields.2

/-- The object of what is given. -/
def document (given : Given) : Json :=
  .ofFields [("attestation", given.attestationTable), ("logging", given.loggingTable)]

/-- What is given, and standard values for everything else. -/
def settings (given : Given) : Settings where
  attestation :=
    { aliasBase := (given.attestation.bind Prod.fst).getD AttestationSettings.standard.aliasBase
      imeiSlot := (given.attestation.bind Prod.snd).getD AttestationSettings.standard.imeiSlot }
  logging :=
    { format := (given.logging.bind Prod.fst).getD LoggingSettings.standard.format
      level := (given.logging.bind Prod.snd).getD LoggingSettings.standard.level }

theorem optional?_attestationTable (given : Given) :
    Json.optional? AttestationSettings.standard given.attestationTable =
      some given.settings.attestation := by
  obtain ⟨_ | ⟨aliasBase, imeiSlot⟩, logging⟩ := given
  · rfl
  · exact AttestationSettings.ofJson?_document aliasBase imeiSlot

theorem optional?_loggingTable (given : Given) :
    Json.optional? LoggingSettings.standard given.loggingTable = some given.settings.logging := by
  obtain ⟨attestation, _ | ⟨format, level⟩⟩ := given
  · rfl
  · exact LoggingSettings.ofJson?_document format level

/-- What is not given is standard. -/
theorem ofJson?_document (given : Given) : ofJson? given.document = some given.settings := by
  have hfields : given.document.fields? ["attestation", "logging"] =
      some [given.attestationTable, given.loggingTable] := Json.fields?_ofFields rfl (by decide)
  simp only [ofJson?, hfields, optional?_attestationTable, optional?_loggingTable,
    Option.bind_eq_bind, Option.bind_some]

end Given

end Settings

instance : LawfulJsonForm Settings where
  ofJson?_toJson s := Settings.Given.ofJson?_document
    ⟨some (some s.attestation.aliasBase, some s.attestation.imeiSlot),
     some (some s.logging.format, some s.logging.level)⟩

/-! ### Rewriting -/

/-- Rewriting settles at once: a value is read back from its text, and rewriting a text that is read
gives a text of the same value, which does not change any more.  Texts are rewritten alike exactly
if they are read as the same value. -/
structure JsonForm.Settles (α : Type) [JsonForm α] : Prop where
  read_write (a : α) : read? (write a) = some a
  rewrite {text : String} {a : α} (h : read? text = some a) :
    ∃ b : α, read? (write a) = some b ∧ b = a ∧ write b = write a
  alike (text text' : String) :
    (read? text : Option α) = read? text' ↔
      (read? text : Option α).map write = (read? text' : Option α).map write

theorem JsonForm.settles (α : Type) [JsonForm α] [LawfulJsonForm α] : Settles α where
  read_write := read?_write
  rewrite {_ a} _ := ⟨a, read?_write a, rfl, rfl⟩
  alike _ _ := (Option.map_injective write_injective).eq_iff.symm

namespace AttestedIds

/-- The entries that count, in the order of their tags. -/
def settled (entries : List (IdTag × Bytes)) : List (IdTag × Bytes) :=
  IdTag.all.filterMap fun id => (entries.reverse.lookup id).map (id, ·)

theorem toList_ofList (entries : List (IdTag × Bytes)) :
    (ofList entries).toList = settled entries := by
  simp only [toList, settled, get?_ofList_eq_lookup]

end AttestedIds

/-- **Documents settle** for all types of data.  Identifiers are written in their order, however the
original listed and repeated them; so are attested identifiers, of each the last value; and settings
that are left out are standard. -/
theorem documents_settle :
    (Settles KeyDescription ∧ Settles AuthorizationSet ∧ Settles KeyCharacteristics ∧
      Settles Request ∧ Settles BuildProperties ∧ Settles Settings) ∧
    (∀ types challenge, ∃ r : Request,
      read? (Request.document types challenge).write = some r ∧
      write r = (Request.document (Named.all.filter (· ∈ types)) challenge).write) ∧
    (∀ (d : KeyDescription) entries, ∃ d' : KeyDescription,
      read? (d.document entries).write = some d' ∧
      write d' = (d.document (AttestedIds.settled entries)).write) ∧
    ∀ given : Settings.Given, read? given.document.write = some given.settings := by
  refine ⟨⟨settles _, settles _, settles _, settles _, settles _, settles _⟩, ?_, ?_, ?_⟩
  · intro types challenge
    refine ⟨.ofTypes types challenge,
      read?_write_of_ofJson? (Request.ofJson?_document types challenge), ?_⟩
    rw [← Request.identifierTypes_ofTypes types challenge]
    rfl
  · intro d entries
    refine ⟨{ d with attestedIds := .ofList entries },
      read?_write_of_ofJson? (d.ofJson?_document entries), ?_⟩
    rw [← AttestedIds.toList_ofList]
    rfl
  · exact fun given => read?_write_of_ofJson? given.ofJson?_document

example :
    (read? "\x7b \"challenge\": [7], \"id_types\": [\"Meid\", \"Serial\", \"Meid\"] \x7d" :
      Option Request).map write =
    some "\x7b\"id_types\":[\"Serial\",\"Meid\"],\"challenge\":[7]\x7d" := by
  decide +kernel

end DeviceAttest
