import DeviceAttest.Bytes
import DeviceAttest.Key.Tag

/-!
# Device identifiers and attestation requests

A caller asks for some of three identifiers, by code or by type, and binds the answer to a
challenge.  `IdentifierSet` is a set in fact: it keeps neither the order nor the repetitions of the
codes it was made from, and lists its members in their fixed order.
-/

namespace DeviceAttest

/-- An identifier of a device that can be attested. -/
inductive IdentifierType where
  | serial | imei | meid
  deriving DecidableEq

instance : Named IdentifierType where
  all := [.serial, .imei, .meid]
  name
    | .serial => "Serial"
    | .imei   => "Imei"
    | .meid   => "Meid"
  find_name a := by cases a <;> rfl

namespace IdentifierType

/-- The code by which a caller asks for an identifier. -/
def code : IdentifierType → Int32
  | serial => 1
  | imei   => 2
  | meid   => 3

/-- The identifier of a code. -/
def ofCode? (code : Int32) : Option IdentifierType :=
  if code = 1 then some serial
  else if code = 2 then some imei
  else if code = 3 then some meid
  else none

/-- The identifier in words. -/
def label : IdentifierType → String
  | serial => "serial number"
  | imei   => "IMEI"
  | meid   => "MEID"

/-- The tag under which the identifier is attested. -/
def idTag : IdentifierType → IdTag
  | serial => .serial
  | imei   => .imei
  | meid   => .meid

/-- Whether only the telephony service can tell the identifier. -/
def requiresTelephony : IdentifierType → Bool
  | serial => false
  | imei   => true
  | meid   => true

theorem ofCode?_code (t : IdentifierType) : ofCode? t.code = some t := by cases t <;> rfl

end IdentifierType

/-! ### Sets of identifiers -/

/-- A set of identifiers, by membership. -/
structure IdentifierSet where
  serial : Bool
  imei : Bool
  meid : Bool
  deriving DecidableEq

namespace IdentifierSet

/-- The set without members. -/
def empty : IdentifierSet := ⟨false, false, false⟩

/-- Whether an identifier is in the set. -/
def contains (s : IdentifierSet) : IdentifierType → Bool
  | .serial => s.serial
  | .imei   => s.imei
  | .meid   => s.meid

/-- The set with one more member. -/
def insert (s : IdentifierSet) : IdentifierType → IdentifierSet
  | .serial => { s with serial := true }
  | .imei   => { s with imei := true }
  | .meid   => { s with meid := true }

/-- The set of the members of a list. -/
def ofList (types : List IdentifierType) : IdentifierSet := types.foldl insert empty

/-- The members, in their fixed order. -/
def toList (s : IdentifierSet) : List IdentifierType :=
  [.serial, .imei, .meid].filter s.contains

theorem contains_insert (s : IdentifierSet) (a b : IdentifierType) :
    (s.insert a).contains b = (a == b || s.contains b) := by
  cases a <;> cases b <;> simp [insert, contains]

/-- The set of a list has the members of the list. -/
theorem contains_ofList (types : List IdentifierType) (type : IdentifierType) :
    (ofList types).contains type = true ↔ type ∈ types := by
  suffices ∀ s : IdentifierSet, (types.foldl insert s).contains type = true ↔
      type ∈ types ∨ s.contains type = true by
    refine (this empty).trans (or_iff_left ?_)
    cases type <;> exact Bool.false_ne_true
  induction types with
  | nil => exact fun s => (or_iff_right List.not_mem_nil).symm
  | cons first types ih =>
    intro s
    rw [List.foldl_cons, ih, contains_insert, Bool.or_eq_true, beq_iff_eq, List.mem_cons,
      eq_comm (a := first), or_left_comm, or_assoc]

/-- Two sets with the same members are the same. -/
theorem ext_contains {s t : IdentifierSet} (h : ∀ a, s.contains a = t.contains a) : s = t := by
  cases s; cases t
  have h₁ := h .serial
  have h₂ := h .imei
  have h₃ := h .meid
  simp_all [contains]

end IdentifierSet

/-! ### Requests -/

/-- The identifiers that a caller wants attested, and the challenge that binds the answer. -/
structure Request where
  types : IdentifierSet
  challenge : Bytes
  deriving DecidableEq

namespace Request

/-- The request for the identifiers of a list. -/
def ofTypes (types : List IdentifierType) (challenge : Bytes) : Request :=
  ⟨IdentifierSet.ofList types, challenge⟩

/-- The request for the identifiers of a list of codes, or the first unknown code. -/
def ofCodes (codes : List Int32) (challenge : Bytes) : Except Int32 Request :=
  match codes.find? fun code => (IdentifierType.ofCode? code).isNone with
  | some unknown => .error unknown
  | none         => .ok (ofTypes (codes.filterMap IdentifierType.ofCode?) challenge)

/-- The requested identifiers, in their fixed order. -/
def identifierTypes (r : Request) : List IdentifierType := r.types.toList

/-- Whether an identifier is requested. -/
def contains (r : Request) (t : IdentifierType) : Bool := r.types.contains t

/-- Whether some requested identifier needs the telephony service. -/
def requiresTelephony (r : Request) : Bool :=
  r.identifierTypes.any IdentifierType.requiresTelephony

end Request

end DeviceAttest
