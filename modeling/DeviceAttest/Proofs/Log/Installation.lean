import DeviceAttest.Log.Directive
import DeviceAttest.Log.Logger
import DeviceAttest.Proofs.Log.Reading

/-!
# The first installation counts

A process installs loggers and reports events in any order (`perform`).  Up to the first
installation nothing is printed.  That one sets the form of the lines and the filter
(`Installer.Sets`), and from then on every event is printed that the filter admits, whatever further
installations are tried: they are refused, or they are faults (`perform_first`).

This is so for every library of filters that does what it is documented to do, and for every text
that the environment may hold.
-/

namespace DeviceAttest.Log

/-- The filter that counts beside a standard one: that of the environment, if it states one that can
be read. -/
inductive Prevails (reader : FilterReader) (environment : Except VariableFault String)
    (standard : String) : reader.Filter → Prop where
  | stated {text : String} {filter : reader.Filter} (h : environment = .ok text)
      (hread : reader.read text = .ok filter) : Prevails reader environment standard filter
  | standard {filter : reader.Filter}
      (h : ∀ text, environment = .ok text → ∀ filter, reader.read text ≠ .ok filter)
      (hread : reader.read standard = .ok filter) : Prevails reader environment standard filter

/-- The form of lines and the filter that an installation sets. -/
inductive Installer.Sets (reader : FilterReader) (environment : Except VariableFault String) :
    Installer → LogFormat → reader.Filter → Prop where
  | text {filter : reader.Filter} (h : Prevails reader environment "info" filter) :
      Sets reader environment .text .text filter
  | json {filter : reader.Filter} (h : Prevails reader environment "info" filter) :
      Sets reader environment .json .json filter
  | settings {settings : LoggingSettings} {filter : reader.Filter}
      (h : Prevails reader environment (reader.wellFormedPart settings.level) filter) :
      Sets reader environment (.settings settings) settings.format filter

section

variable {reader : FilterReader} {environment : Except VariableFault String}

/-! ### One installation -/

/-- There is a filter, and it is the one that counts. -/
theorem exists_filterOr (h : reader.Documented) (environment : Except VariableFault String)
    (standard : String) :
    ∃ filter, Prevails reader environment (reader.wellFormedPart standard) filter ∧
      filterOr reader environment standard = .ok filter := by
  obtain ⟨filter, hpart⟩ := h.reads standard
  have hstandard : reader.readLeniently standard = .ok filter := (h.lenient standard).trans hpart
  cases environment with
  | error fault => exact ⟨filter, .standard nofun hpart, hstandard⟩
  | ok text =>
    rw [filterOr]
    rcases hread : reader.read text with (_ | _) | stated
    · refine ⟨filter, .standard (fun text' ht filter' hf => ?_) hpart, hstandard⟩
      cases ht
      cases hread.symm.trans hf
    · exact absurd hread (h.answers text)
    · exact ⟨stated, .stated rfl hread, rfl⟩

namespace Installer

/-- The logger of an installation has the form and the filter that the installation sets. -/
theorem exists_logger (h : reader.Documented) (environment : Except VariableFault String)
    (i : Installer) :
    ∃ format filter, i.Sets reader environment format filter ∧
      i.logger environment = .ok ⟨format, filter⟩ := by
  obtain ⟨filter, hprevails, hfilter⟩ := exists_filterOr h environment i.standardFilter
  refine ⟨i.format, filter, ?_, congrArg (Except.map (Logger.mk i.format)) hfilter⟩
  cases i with
  | text => exact .text (FilterReader.wellFormedPart_info h.level ▸ hprevails)
  | json => exact .json (FilterReader.wellFormedPart_info h.level ▸ hprevails)
  | settings s => exact .settings hprevails

/-- The first installation takes effect. -/
theorem install_none (h : reader.Documented) (i : Installer) :
    ∃ format filter, i.Sets reader environment format filter ∧
      i.install environment none = (.installed, some ⟨format, filter⟩) := by
  obtain ⟨format, filter, hsets, hlogger⟩ := exists_logger h environment i
  exact ⟨format, filter, hsets, by simp only [install, hlogger]⟩

/-- A later one does not. -/
theorem install_some (h : reader.Documented) (installed : Logger reader) (i : Installer) :
    i.install environment (some installed) = (i.lateOutcome, some installed) := by
  obtain ⟨format, filter, -, hlogger⟩ := exists_logger h environment i
  simp only [install, hlogger]

end Installer

/-! ### What a process prints -/

namespace Act

/-- The installation that an act is. -/
def installer? : Act → Option Installer
  | install i => some i
  | report _  => none

/-- The events that an act reports. -/
def events : Act → List Event
  | install _ => []
  | report es => es

end Act

variable {installed : Option (Logger reader)} {acts : List Act}

theorem perform_install {i : Installer} {outcome : Outcome} {installed' : Option (Logger reader)}
    (h : i.install environment installed = (outcome, installed')) :
    perform reader environment installed (.install i :: acts) =
      (outcome :: (perform reader environment installed' acts).1,
        (perform reader environment installed' acts).2) := by
  rw [perform, h]

theorem perform_report {events : List Event} :
    perform reader environment installed (.report events :: acts) =
      ((perform reader environment installed acts).1,
        printed installed events ++ (perform reader environment installed acts).2) := rfl

/-- A logger prints the events of a list and then those of another. -/
theorem Logger.lines_append (logger : Logger reader) (events later : List Event) :
    logger.lines (events ++ later) = logger.lines events ++ logger.lines later := by
  rw [lines, List.filter_append, List.map_append]
  rfl

/-- Where there is a logger, it stays, and prints all events that are reported. -/
theorem perform_some (h : reader.Documented) (logger : Logger reader) (acts : List Act) :
    perform reader environment (some logger) acts =
      ((acts.filterMap Act.installer?).map Installer.lateOutcome,
        logger.lines (acts.flatMap Act.events)) := by
  induction acts with
  | nil => rfl
  | cons act acts ih =>
    cases act with
    | install i =>
      rw [perform_install (Installer.install_some h logger i), ih]
      rfl
    | report events =>
      rw [perform_report, ih, List.flatMap_cons, Logger.lines_append]
      rfl

/-- Up to the first installation there is nothing. -/
theorem perform_none {quiet later : List Act} (h : quiet.filterMap Act.installer? = []) :
    perform reader environment none (quiet ++ later) =
      perform reader environment none later := by
  induction quiet with
  | nil => rfl
  | cons act quiet ih =>
    cases act with
    | install i => cases h
    | report events =>
      rw [List.cons_append, perform_report, ih h]
      rfl

end

/-- **The first installation counts.**  Without an installation nothing is printed, and nothing is
before the first.  That one takes effect; a later one is refused if it goes by settings and is a
fault if not, and changes nothing: whatever is reported from the first one on is printed in its form
and in order, as far as its filter admits it.  A line of text is made of level, target, message and
fields; a line with named parts has the message as the first of its fields. -/
theorem perform_first {reader : FilterReader} (h : reader.Documented)
    (environment : Except VariableFault String) (acts : List Act) :
    (acts.filterMap Act.installer? = [] → perform reader environment none acts = ([], [])) ∧
      ∀ quiet first later, acts = quiet ++ .install first :: later →
        quiet.filterMap Act.installer? = [] →
        ∃ format filter, first.Sets reader environment format filter ∧
          perform reader environment none acts =
            (.installed :: (later.filterMap Act.installer?).map fun
                | .settings _ => .refused
                | _           => .faulted,
              ((later.flatMap Act.events).filter (reader.admits filter)).map fun e =>
                match format with
                | .text =>
                  let fields := e.fields.map fun (name, value) => s!" {name}={value.render}"
                  .text (s!"{Named.name e.level} {e.target}: {e.message}" ++ String.join fields)
                | .json =>
                  .record (Named.name e.level) e.target
                    (("message", .text e.message) :: e.fields)) := by
  constructor
  · intro hnone
    have hquiet : perform reader environment none (acts ++ []) = ([], []) := perform_none hnone
    rwa [List.append_nil] at hquiet
  · rintro quiet first later rfl hquiet
    obtain ⟨format, filter, hsets, hinstall⟩ := Installer.install_none h first
    refine ⟨format, filter, hsets, ?_⟩
    have hlate : Installer.lateOutcome = fun
        | .settings _ => .refused
        | _           => .faulted := by
      funext i
      cases i <;> rfl
    rw [perform_none hquiet, perform_install hinstall, perform_some h, hlate]
    rfl

/-- Reads a directive; a text whose reading breaks off is malformed. -/
def Directive.steadily (piece : List Char) : Except FilterFault Directive :=
  (Directive.parse (fun _ => true) piece).mapError fun _ => .malformed

/-- The reader of directives that refuses what breaks off does what is documented. -/
theorem documented_steadily :
    (FilterReader.ofDirectives Directive.steadily Directive.admits).Documented := by
  refine FilterReader.documented_ofDirectives (fun piece h => ?_)
    ⟨⟨none, none, none, some .info⟩, by decide +kernel⟩
  rw [Directive.steadily] at h
  cases hparse : Directive.parse (fun _ => true) piece with
  | error e => rw [hparse] at h; cases h
  | ok d => rw [hparse] at h; cases h

/-- An environment that is no filter leaves it to the first installation, whose own filter has a
malformed directive; of what is reported later, only warnings and what concerns the keystore are
printed. -/
theorem perform_first_unread :
    let reader := FilterReader.ofDirectives Directive.steadily Directive.admits
    let settings : LoggingSettings := ⟨.text, "warn,=,devid_identity::keystore=debug"⟩
    let acts : List Act :=
      [.report [.clearing "k"], .install (.settings settings), .install .json,
       .report [.completed "k" 2, .removed "k"], .install (.settings ⟨.json, "trace"⟩),
       .report [.leftBehind "k"]]
    reader.Documented ∧
      perform reader (.ok "=") none acts =
        ([.installed, .faulted, .refused],
          [.text "DEBUG devid_identity::keystore: temporary attestation key removed alias=k",
           .text ("WARN devid_identity::keystore: failed to remove temporary attestation key; " ++
             "key may remain in keystore alias=k")]) := by
  intro reader settings acts
  have hunread : [['=']].mapM Directive.steadily = .error .malformed := by
    decide +kernel
  have hpart : reader.wellFormedPart settings.level = "warn,devid_identity::keystore=debug" := by
    decide +kernel
  have hdirectives :
      (FilterReader.pieces "warn,devid_identity::keystore=debug").mapM Directive.steadily =
        .ok [⟨none, none, none, some .warn⟩,
          ⟨some "devid_identity::keystore", none, none, some .debug⟩] := by
    decide +kernel
  obtain ⟨format, filter, hsets, hperform⟩ := (perform_first documented_steadily (.ok "=") acts).2
    [.report [.clearing "k"]] (.settings settings) _ rfl rfl
  refine ⟨documented_steadily, hperform.trans ?_⟩
  cases hsets with
  | settings hprevails =>
    cases hprevails with
    | stated h hread =>
      cases h
      cases hunread.symm.trans hread
    | standard h hread =>
      rw [hpart] at hread
      cases hread.symm.trans hdirectives
      rfl

end DeviceAttest.Log
