import DeviceAttest.Bytes
import DeviceAttest.Key.Tag

/-!
# Key descriptions

A key description says how a key came into being: two versions, two security levels, the challenge
and unique id, and the attested identifiers.  `AttestedIds` is a finite map from identifier tags to
byte strings, kept by look-up, so that two maps with the same entries are equal
(`AttestedIds.ext_get`).
-/

namespace DeviceAttest

/-- Where a key or an attestation is protected. -/
inductive SecurityLevel where
  | software | trustedEnvironment | strongBox
  | unknown (level : Int64)
  deriving DecidableEq

namespace SecurityLevel

/-- The level of a number. -/
def ofInt64 (n : Int64) : SecurityLevel :=
  if n = 0 then software
  else if n = 1 then trustedEnvironment
  else if n = 2 then strongBox
  else unknown n

/-- The number of a level. -/
def toInt64 : SecurityLevel → Int64
  | software           => 0
  | trustedEnvironment => 1
  | strongBox          => 2
  | unknown level      => level

/-- Every number is the number of its level. -/
@[simp] theorem toInt64_ofInt64 (n : Int64) : (ofInt64 n).toInt64 = n := by
  unfold ofInt64
  split
  · simp_all [toInt64]
  · split
    · simp_all [toInt64]
    · split <;> simp_all [toInt64]

end SecurityLevel

/-! ### Attested identifiers -/

/-- The bytes attested under each identifier tag, if any. -/
structure AttestedIds where
  brand : Option Bytes
  device : Option Bytes
  product : Option Bytes
  serial : Option Bytes
  imei : Option Bytes
  meid : Option Bytes
  manufacturer : Option Bytes
  model : Option Bytes
  deriving DecidableEq

namespace AttestedIds

/-- No identifier at all. -/
def empty : AttestedIds := ⟨none, none, none, none, none, none, none, none⟩

/-- The bytes attested under a tag. -/
def get? (ids : AttestedIds) : IdTag → Option Bytes
  | .brand        => ids.brand
  | .device       => ids.device
  | .product      => ids.product
  | .serial       => ids.serial
  | .imei         => ids.imei
  | .meid         => ids.meid
  | .manufacturer => ids.manufacturer
  | .model        => ids.model

/-- Attests bytes under a tag, in place of what was there. -/
def insert (ids : AttestedIds) (id : IdTag) (value : Bytes) : AttestedIds :=
  match id with
  | .brand        => { ids with brand := some value }
  | .device       => { ids with device := some value }
  | .product      => { ids with product := some value }
  | .serial       => { ids with serial := some value }
  | .imei         => { ids with imei := some value }
  | .meid         => { ids with meid := some value }
  | .manufacturer => { ids with manufacturer := some value }
  | .model        => { ids with model := some value }

/-- The map of a list of entries, a later entry in place of an earlier one. -/
def ofList (entries : List (IdTag × Bytes)) : AttestedIds :=
  entries.foldl (fun ids (id, value) => ids.insert id value) empty

/-- The entries, in ascending tag order. -/
def toList (ids : AttestedIds) : List (IdTag × Bytes) :=
  IdTag.all.filterMap fun id => (ids.get? id).map (id, ·)

@[simp] theorem get?_empty (id : IdTag) : empty.get? id = none := by cases id <;> rfl

@[simp] theorem get?_insert (ids : AttestedIds) (a b : IdTag) (value : Bytes) :
    (ids.insert a value).get? b = if a = b then some value else ids.get? b := by
  cases a <;> cases b <;> rfl

/-- Two maps with the same entries are the same. -/
theorem ext_get {ids other : AttestedIds} (h : ∀ id, ids.get? id = other.get? id) :
    ids = other := by
  cases ids; cases other
  have h₁ := h .brand
  have h₂ := h .device
  have h₃ := h .product
  have h₄ := h .serial
  have h₅ := h .imei
  have h₆ := h .meid
  have h₇ := h .manufacturer
  have h₈ := h .model
  simp_all [get?]

end AttestedIds

/-- What the attestation extension of a certificate says about the certified key. -/
structure KeyDescription where
  attestationVersion : Int64
  attestationLevel : SecurityLevel
  keymasterVersion : Int64
  keymasterLevel : SecurityLevel
  challenge : Bytes
  uniqueId : Bytes
  attestedIds : AttestedIds
  deriving DecidableEq

end DeviceAttest
