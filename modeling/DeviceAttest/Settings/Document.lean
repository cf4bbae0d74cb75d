import DeviceAttest.Settings.Basic
import DeviceAttest.Toml.Value

/-!
# Settings from documents

Settings are the standard ones overlaid by what a document states, and then validated.  A record of
settings is a table, in which unknown names are passed over, or an array of the fields in order, of
which the last ones may be missing and surplus ones are passed over.  A date is a record that states
no field.  Which document a text spells, if any, is up to a reader.
-/

namespace DeviceAttest

namespace Toml.Node

/-- The fields of a record, as far as they are stated. -/
def fields? (names : List String) : Node → Option (List (Option Node))
  | inline entries      => some (names.map fun name => entries.lookup name)
  | table _ entries     => some (names.map fun name => entries.lookup name)
  | moment              => some (names.map fun _ => none)
  | array items         => some (ofItems items)
  | tables last earlier => some (ofItems ((earlier.reverse ++ [last]).map (table .header)))
  | _                   => none
where
  /-- Gives each field the item at its place. -/
  ofItems (items : List Node) : List (Option Node) :=
    (List.range names.length).map fun i => items[i]?

/-- Whether a node is a table or an array without contents. -/
def isEmpty : Node → Bool
  | inline entries  => entries.isEmpty
  | table _ entries => entries.isEmpty
  | array items     => items.isEmpty
  | _               => false

/-- The name of an alternative: a string, or the one name in a table whose value is empty. -/
def alternative? : Node → Option String
  | string text                            => some text
  | inline [(name, node)]                  => if node.isEmpty then some name else none
  | table _ [(name, node)]                 => if node.isEmpty then some name else none
  | _                                      => none

end Toml.Node

open Toml (Node Entries)

/-- A field that has a standard value and is read by `read` where it is stated. -/
def overlay {α : Type} (standard : α) (read : Node → Option α) : Option Node → Option α
  | none      => some standard
  | some node => read node

/-- Reads a text. -/
def textOfNode? : Node → Option String
  | .string text => some text
  | _            => none

/-- Reads a number of 32 bits. -/
def slotOfNode? : Node → Option UInt32
  | .integer n => if 0 ≤ n ∧ n ≤ 0xffffffff then some (UInt32.ofNat n.toNat) else none
  | _          => none

/-- Reads the form of log lines. -/
def formatOfNode? (node : Node) : Option LogFormat := node.alternative?.bind Named.ofName?

/-- Reads the settings of attestation. -/
def AttestationSettings.ofNode? (node : Node) : Option AttestationSettings := do
  match ← node.fields? ["alias_prefix", "imei_slot"] with
  | [aliasBase, imeiSlot] =>
    let aliasBase ← overlay standard.aliasBase textOfNode? aliasBase
    let imeiSlot ← overlay standard.imeiSlot slotOfNode? imeiSlot
    some ⟨aliasBase, imeiSlot⟩
  | _ => none

/-- Reads the settings of logging. -/
def LoggingSettings.ofNode? (node : Node) : Option LoggingSettings := do
  match ← node.fields? ["format", "level"] with
  | [format, level] =>
    let format ← overlay standard.format formatOfNode? format
    let level ← overlay standard.level textOfNode? level
    some ⟨format, level⟩
  | _ => none

namespace Settings

/-- The settings that the outermost table of a document states, not yet validated. -/
def ofEntries? (entries : Entries) : Option Settings := do
  let attestation ←
    overlay AttestationSettings.standard AttestationSettings.ofNode? (entries.lookup "attestation")
  let logging ← overlay LoggingSettings.standard LoggingSettings.ofNode? (entries.lookup "logging")
  some ⟨attestation, logging⟩

/-- The settings of a document's outermost table. -/
def ofEntries (entries : Entries) : Except SettingsError Settings :=
  match ofEntries? entries with
  | none          => .error .document
  | some settings => settings.validated

/-- The settings that a text states, of which `read` gives the outermost table. -/
def ofText (read : String → Option Entries) (text : String) : Except SettingsError Settings :=
  match read text with
  | none         => .error .document
  | some entries => ofEntries entries

/-- The settings that a file states, of which the octets are given if there is one. -/
def ofFile (read : String → Option Entries) (content : Option Bytes) :
    Except SettingsError Settings :=
  match content with
  | none        => .error (.unreadable .notFound)
  | some octets =>
    match Bytes.toText? octets with
    | none      => .error (.unreadable .notText)
    | some text => ofText read text

end Settings

end DeviceAttest
