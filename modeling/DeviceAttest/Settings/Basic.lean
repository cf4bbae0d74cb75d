import DeviceAttest.Named

/-!
# Settings

The settings of attestation and of logging, their defaults, and the check that an alias base is
printable ASCII without blanks.
-/

namespace DeviceAttest

/-- The settings of attestation. -/
structure AttestationSettings where
  /-- What every alias begins with. -/
  aliasBase : String
  /-- The telephony slot whose identifier is read. -/
  imeiSlot : UInt32
  deriving DecidableEq

/-- The form of log lines. -/
inductive LogFormat where
  | text | json
  deriving DecidableEq

instance : Named LogFormat where
  all := [.text, .json]
  name
    | .text => "text"
    | .json => "json"
  find_name a := by cases a <;> rfl

/-- The settings of logging. -/
structure LoggingSettings where
  format : LogFormat
  /-- The filter that applies unless the environment states one. -/
  level : String
  deriving DecidableEq

/-- All settings. -/
structure Settings where
  attestation : AttestationSettings
  logging : LoggingSettings
  deriving DecidableEq

/-! ### Defaults -/

/-- The settings of attestation where nothing else is stated. -/
def AttestationSettings.standard : AttestationSettings :=
  ⟨"android_internal_device_id_attestation", 0⟩

/-- The settings of logging where nothing else is stated. -/
def LoggingSettings.standard : LoggingSettings := ⟨.text, "info"⟩

/-- The settings where nothing else is stated. -/
def Settings.standard : Settings := ⟨.standard, .standard⟩

/-! ### Validity -/

/-- Why a file has no text. -/
inductive FileFault where
  | notFound
  | notText
  | stated (text : String)
  deriving DecidableEq

/-- The wording of a file's fault. -/
def FileFault.message : FileFault → String
  | notFound    => "entity not found"
  | notText     => "stream did not contain valid UTF-8"
  | stated text => text

/-- Why there are no usable settings. -/
inductive SettingsError where
  | unreadable (fault : FileFault)
  | document
  | emptyBase
  | badBase (base : String)
  | stated (text : String)
  deriving DecidableEq

namespace SettingsError

/-- What is wrong with settings that could be read. -/
def reason : SettingsError → String
  | unreadable fault => fault.message
  | document         => "<toml>"
  | emptyBase        => "attestation.alias_prefix is empty"
  | badBase base     => s!"attestation.alias_prefix '{base}' must be printable ASCII without spaces"
  | stated text      => text

/-- The wording of an error. -/
def message (e : SettingsError) : String :=
  match e with
  | unreadable _ => s!"IO error: {e.reason}"
  | _            => s!"Configuration error: {e.reason}"

end SettingsError

/-- Whether a character is printable ASCII and no blank. -/
def isGraphic (c : Char) : Bool := '!' ≤ c && c ≤ '~'

/-- Checks that settings give usable aliases. -/
def Settings.validate (s : Settings) : Except SettingsError Unit :=
  let base := s.attestation.aliasBase
  if base = "" then .error .emptyBase
  else if base.toList.all isGraphic then .ok ()
  else .error (.badBase base)

/-- The settings themselves, if they give usable aliases. -/
def Settings.validated (s : Settings) : Except SettingsError Settings :=
  s.validate.map fun _ => s

end DeviceAttest
