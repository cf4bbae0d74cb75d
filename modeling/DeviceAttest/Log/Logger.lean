import DeviceAttest.Log.Reader
import DeviceAttest.Settings.Basic

/-!
# The logger of a process

A process has one logger at most: the first installation counts and no later one changes anything.
The environment may state a filter; if it can be read it goes before the filter of the installation.
What a process does with its log is a list of acts: installations, and reports of events in between
(`perform`).
-/

namespace DeviceAttest.Log

/-! ### Lines -/

/-- A log line. -/
inductive Line where
  | text (line : String)
  | record (level target : String) (fields : List (String × Event.FieldValue))
  deriving DecidableEq

namespace Line

/-- A line of text: level, target, message and fields. -/
def ofEventText (e : Event) : Line :=
  let fields := e.fields.map fun (name, value) => s!" {name}={value.render}"
  text (s!"{Named.name e.level} {e.target}: {e.message}" ++ String.join fields)

/-- A line with named parts; the message is the first of the fields. -/
def ofEventRecord (e : Event) : Line :=
  record (Named.name e.level) e.target (("message", .text e.message) :: e.fields)

end Line

/-! ### Loggers -/

/-- Where log lines go: their form, and which events are let through. -/
structure Logger (reader : FilterReader) where
  format : LogFormat
  filter : reader.Filter

namespace Logger

variable {reader : FilterReader}

/-- The line of an event in the logger's form. -/
def render (l : Logger reader) (e : Event) : Line :=
  match l.format with
  | .text => .ofEventText e
  | .json => .ofEventRecord e

/-- The lines of some events, of which only those that pass the filter are written. -/
def lines (l : Logger reader) (events : List Event) : List Line :=
  (events.filter (reader.admits l.filter)).map l.render

end Logger

/-! ### Installation -/

/-- Why the environment states no filter. -/
inductive VariableFault where
  | unset
  | notText
  deriving DecidableEq

/-- A way to install a logger. -/
inductive Installer where
  | text
  | json
  /-- By settings; this way does not insist on being the first. -/
  | settings (settings : LoggingSettings)
  deriving DecidableEq

/-- How an installation ends. -/
inductive Outcome where
  | installed | refused | faulted
  deriving DecidableEq

/-- The filter that the environment states, or else what is well formed of a standard one. -/
def filterOr (reader : FilterReader) (environment : Except VariableFault String)
    (standard : String) : Except FilterFault reader.Filter :=
  match environment with
  | .error _ => reader.readLeniently standard
  | .ok text =>
    match reader.read text with
    | .ok filter        => .ok filter
    | .error .malformed => reader.readLeniently standard
    | .error .brokenOff => .error .brokenOff

namespace Installer

/-- The form of the lines. -/
def format : Installer → LogFormat
  | text       => .text
  | json       => .json
  | settings s => s.format

/-- The filter that applies unless the environment states one. -/
def standardFilter : Installer → String
  | text       => "info"
  | json       => "info"
  | settings s => s.level

/-- How an installation ends where there is a logger already. -/
def lateOutcome : Installer → Outcome
  | text       => .faulted
  | json       => .faulted
  | settings _ => .refused

variable {reader : FilterReader} (environment : Except VariableFault String)

/-- The logger that would be installed. -/
def logger (i : Installer) : Except FilterFault (Logger reader) :=
  (filterOr reader environment i.standardFilter).map fun filter => ⟨i.format, filter⟩

/-- Installs a logger unless there is one.  A filter that cannot even be refused is a fault. -/
def install (installed : Option (Logger reader)) (i : Installer) :
    Outcome × Option (Logger reader) :=
  match i.logger environment, installed with
  | .ok logger, none        => (.installed, some logger)
  | .ok _, some logger      => (i.lateOutcome, some logger)
  | .error _, installed     => (.faulted, installed)

end Installer

/-! ### Acts -/

/-- Something that a process does and that concerns its log: it installs a logger, or it runs calls
and they report events. -/
inductive Act where
  | install (installer : Installer)
  | report (events : List Event)

/-- What a process prints for some events; nothing without a logger. -/
def printed {reader : FilterReader} (installed : Option (Logger reader)) (events : List Event) :
    List Line :=
  match installed with
  | none        => []
  | some logger => logger.lines events

/-- How the installations among some acts end, and the lines that are printed. -/
def perform (reader : FilterReader) (environment : Except VariableFault String) :
    Option (Logger reader) → List Act → List Outcome × List Line
  | _, []                             => ([], [])
  | installed, .install i :: acts     =>
    let (outcome, installed) := i.install environment installed
    let (outcomes, lines) := perform reader environment installed acts
    (outcome :: outcomes, lines)
  | installed, .report events :: acts =>
    let (outcomes, lines) := perform reader environment installed acts
    (outcomes, printed installed events ++ lines)

end DeviceAttest.Log
