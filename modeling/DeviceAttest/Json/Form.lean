import DeviceAttest.Json.Read
import DeviceAttest.Named

/-!
# Types with a JSON form

`JsonForm` gives a type the value it is written as and reads it back from any value of the form.
Numbers are read if they are in range; lists are arrays.  Alternatives are a name or an object with
one member, and records are objects with a member for each field or arrays of the fields in order.
-/

namespace DeviceAttest

/-- A type whose values are written as JSON values. -/
class JsonForm (α : Type) where
  /-- The value that is written. -/
  toJson : α → Json
  /-- Reads a value, if it has the form. -/
  ofJson? : Json → Option α

namespace JsonForm

/-- The compact JSON text of a value. -/
def write {α : Type} [JsonForm α] (a : α) : String := (toJson a).write

/-- Reads a JSON text. -/
def read? {α : Type} [JsonForm α] (text : String) : Option α := (Json.read? text).bind ofJson?

/-! ### Numbers and texts -/

/-- The integer of a value, if it lies between two bounds. -/
def integer? (low high : Int) : Json → Option Int
  | .integer n => if low ≤ n ∧ n ≤ high then some n else none
  | _          => none

instance : JsonForm UInt8 where
  toJson n := .integer n.toNat
  ofJson? j := (integer? 0 0xff j).map fun n => UInt8.ofNat n.toNat

instance : JsonForm UInt32 where
  toJson n := .integer n.toNat
  ofJson? j := (integer? 0 0xffffffff j).map fun n => UInt32.ofNat n.toNat

instance : JsonForm UInt64 where
  toJson n := .integer n.toNat
  ofJson? j := (integer? 0 0xffffffffffffffff j).map fun n => UInt64.ofNat n.toNat

instance : JsonForm Int32 where
  toJson n := .integer n.toInt
  ofJson? j := (integer? (-0x80000000) 0x7fffffff j).map Int32.ofInt

instance : JsonForm Int64 where
  toJson n := .integer n.toInt
  ofJson? j := (integer? (-0x8000000000000000) 0x7fffffffffffffff j).map Int64.ofInt

instance : JsonForm String where
  toJson := Json.ofText
  ofJson?
    | .string text => text
    | _            => none

instance {α : Type} [JsonForm α] : JsonForm (List α) where
  toJson items := .array (items.map toJson)
  ofJson?
    | .array items => items.mapM ofJson?
    | _            => none

end JsonForm

namespace Json

/-! ### Alternatives -/

/-- The name of an alternative and the value that comes with it. -/
def alternative? : Json → Option (String × Option Json)
  | string (some name)            => some (name, none)
  | object [(some name, payload)] => some (name, some payload)
  | _                             => none

/-- Whether what comes with an alternative is nothing. -/
def isBare : Option Json → Bool
  | none | some null => true
  | _                => false

/-- The named member of a type whose alternatives come with nothing. -/
def named? {α : Type} [Named α] (j : Json) : Option α := do
  let (name, payload) ← j.alternative?
  if isBare payload then Named.ofName? name else none

/-- An alternative that comes with a value. -/
def tagged (name : String) (payload : Json) : Json := ofMembers [(name, payload)]

/-! ### Records -/

/-- The value of a field in an object, if the field occurs; it may occur once only. -/
def member? (members : List (JsonText × Json)) (field : String) : Option (Option Json) :=
  match members.filter fun member => member.1 == some field with
  | []           => some none
  | [(_, value)] => some (some value)
  | _            => none

/-- The values of the fields of a record, as far as they are given.  An object may have members of
other names, but each of its names must be a text; an array has no more items than fields. -/
def fields? (names : List String) : Json → Option (List (Option Json))
  | object members =>
    if members.all fun member => member.1.isSome then names.mapM (member? members) else none
  | array items    =>
    if items.length ≤ names.length then
      some (items.map some ++ List.replicate (names.length - items.length) none)
    else none
  | _              => none

/-- Reads a field that must be given. -/
def required? {α : Type} [JsonForm α] (field : Option Json) : Option α :=
  field.bind JsonForm.ofJson?

/-- Reads a field that has a standard value. -/
def optional? {α : Type} [JsonForm α] (standard : α) : Option Json → Option α
  | none       => some standard
  | some value => JsonForm.ofJson? value

end Json

/-- A member of a finite type is written by its name. -/
abbrev JsonForm.ofNamed (α : Type) [Named α] : JsonForm α where
  toJson a := Json.ofText (Named.name a)
  ofJson? := Json.named?

end DeviceAttest
