import DeviceAttest.Log.Level

/-!
# Events of a call

What a call reports while it runs.  Every event carries the alias of the call's temporary key, and
some a number of items.
-/

namespace DeviceAttest

/-- Something that a call reports. -/
inductive Event where
  | clearing (key : String)
  | generated (key : String) (hardware software : Nat)
  | attested (key : String) (entries : Nat)
  | completed (key : String) (certificates : Nat)
  | removed (key : String)
  | leftBehind (key : String)
  deriving DecidableEq

namespace Event

/-- The value of a field. -/
inductive FieldValue where
  | text (value : String)
  | count (value : Nat)
  deriving DecidableEq

/-- The value of a field in words. -/
def FieldValue.render : FieldValue → String
  | text value  => value
  | count value => toString value

/-- How much an event matters. -/
def level : Event → Log.Level
  | clearing ..   => .debug
  | generated ..  => .debug
  | attested ..   => .debug
  | completed ..  => .info
  | removed ..    => .debug
  | leftBehind .. => .warn

/-- An event in words. -/
def message : Event → String
  | clearing ..   => "clearing leftover temporary key"
  | generated ..  => "temporary key generated"
  | attested ..   => "attestation returned"
  | completed ..  => "device identifier attestation complete"
  | removed ..    => "temporary attestation key removed"
  | leftBehind .. => "failed to remove temporary attestation key; key may remain in keystore"

/-- The key that an event is about, by its alias. -/
def key : Event → String
  | clearing a      => a
  | generated a _ _ => a
  | attested a _    => a
  | completed a _   => a
  | removed a       => a
  | leftBehind a    => a

/-- The fields beside the key. -/
def counts : Event → List (String × Nat)
  | generated _ hardware software => [("hw_enforced", hardware), ("sw_enforced", software)]
  | attested _ entries            => [("entries", entries)]
  | completed _ certificates      => [("certificates", certificates)]
  | _                             => []

/-- All fields of an event, in order. -/
def fields (e : Event) : List (String × FieldValue) :=
  ("alias", .text e.key) :: e.counts.map fun (name, n) => (name, .count n)

/-- The names of all fields, the message being one of them. -/
def fieldNames (e : Event) : List String := "message" :: e.fields.map Prod.fst

/-- The part of the program that an event is attributed to. -/
def target : Event → String
  | removed ..    => "devid_identity::keystore"
  | leftBehind .. => "devid_identity::keystore"
  | _             => "devid_identity::attestation"

end Event

end DeviceAttest
