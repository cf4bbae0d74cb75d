import DeviceAttest.Proofs.Alias
import DeviceAttest.Settings.Document
import DeviceAttest.Toml.Document
import Mathlib.Algebra.Group.Int.Defs

/-!
# Settings are standard ones overlaid

What a document states of the four settings is a `Stated`; the document may state them in any order,
leave out a table or write it in either way, and hold anything else beside them (`Stated.In`).

* `ofEntries?_eq`: the four settings are read independently of one another;
* `exists_overlays`: as long as slot and form are ones that there are, each setting is the stated
  one or else the standard one;
* `ofEntries?_eq_none`: otherwise nothing is read, whatever the base of aliases.

Settings that are read are accepted exactly if the base of aliases is not empty and has visible
characters only (`validate_eq_ok_iff`), and then so has every alias drawn for it
(`visible_of_mem_alias`).  `settings_overlaid` has it all.
-/

namespace DeviceAttest

open Toml (Node Entries)

/-! ### What a document states -/

/-- A character between U+0021 and U+007E. -/
def Visible (c : Char) : Prop := 0x21 ≤ c.toNat ∧ c.toNat ≤ 0x7e

instance : DecidablePred Visible := fun _ => inferInstanceAs (Decidable (_ ∧ _))

/-- What is stated of the four settings. -/
structure Stated where
  aliasBase : Option String
  imeiSlot : Option Int
  format : Option String
  level : Option String

namespace Stated

/-- The entries of a table, written in either way; one that is absent has none. -/
inductive Tabled : Option Node → Entries → Prop where
  | absent : Tabled none []
  | inline (entries : Entries) : Tabled (some (.inline entries)) entries
  | table (origin : Toml.Origin) (entries : Entries) : Tabled (some (.table origin entries)) entries

/-- The outermost table of a document that states this, and perhaps more under other names. -/
structure In (stated : Stated) (entries : Entries) : Prop where
  attestation : ∃ inner, Tabled (entries.lookup "attestation") inner ∧
    inner.lookup "alias_prefix" = stated.aliasBase.map .string ∧
    inner.lookup "imei_slot" = stated.imeiSlot.map .integer
  logging : ∃ inner, Tabled (entries.lookup "logging") inner ∧
    inner.lookup "format" = stated.format.map .string ∧
    inner.lookup "level" = stated.level.map .string

/-- The slot and the form are ones that there are. -/
structure Readable (stated : Stated) : Prop where
  imeiSlot : ∀ n, stated.imeiSlot = some n → 0 ≤ n ∧ n < 2 ^ 32
  format : ∀ text, stated.format = some text → text = "text" ∨ text = "json"

/-- The base of aliases: the stated one, or else the standard one. -/
def base (stated : Stated) : String :=
  stated.aliasBase.getD "android_internal_device_id_attestation"

/-- Each setting is the stated one, or else the standard one. -/
structure Overlays (stated : Stated) (s : Settings) : Prop where
  aliasBase : s.attestation.aliasBase = stated.base
  imeiSlot : (s.attestation.imeiSlot.toNat : Int) = stated.imeiSlot.getD 0
  format : Named.name s.logging.format = stated.format.getD "text"
  level : s.logging.level = stated.level.getD "info"

end Stated

/-! ### Fields -/

theorem overlay_text (standard : String) (stated : Option String) :
    overlay standard textOfNode? (stated.map .string) = some (stated.getD standard) := by
  cases stated <;> rfl

/-- A slot is read exactly if it is a number of 32 bits. -/
theorem slotOfNode?_eq_some_iff {n : Int} {slot : UInt32} :
    slotOfNode? (.integer n) = some slot ↔ (slot.toNat : Int) = n := by
  have hslot := slot.toNat_lt
  rw [slotOfNode?]
  constructor
  · intro h
    split at h
    · rw [← Option.some.inj h, UInt32.toNat_ofNat']
      omega
    · cases h
  · intro h
    rw [if_pos (by omega), ← h, Int.toNat_natCast, UInt32.ofNat_toNat]

theorem slotOfNode?_eq_none {n : Int} (h : ¬ (0 ≤ n ∧ n < 2 ^ 32)) :
    slotOfNode? (.integer n) = none := if_neg (by omega)

/-- A form is read exactly by its name. -/
theorem formatOfNode?_eq_some_iff {text : String} {format : LogFormat} :
    formatOfNode? (.string text) = some format ↔ Named.name format = text := by
  show Named.ofName? text = some format ↔ _
  constructor
  · intro h
    have hfound := List.find?_some (p := fun a => Named.name a == text) h
    exact beq_iff_eq.mp hfound
  · rintro rfl
    exact Named.ofName?_name format

theorem formatOfNode?_eq_none {text : String} (h : ¬ (text = "text" ∨ text = "json")) :
    formatOfNode? (.string text) = none := by
  cases hf : formatOfNode? (.string text) with
  | none => rfl
  | some format =>
    have hname := formatOfNode?_eq_some_iff.mp hf
    refine absurd ?_ h
    cases format with
    | text => exact .inl hname.symm
    | json => exact .inr hname.symm

/-! ### Tables -/

namespace Stated

/-- A table states two settings of attestation, one that is absent none. -/
theorem Tabled.attestation {node : Option Node} {inner : Entries} (h : Tabled node inner) :
    overlay .standard AttestationSettings.ofNode? node = (do
      let aliasBase ← overlay AttestationSettings.standard.aliasBase textOfNode?
        (inner.lookup "alias_prefix")
      let imeiSlot ← overlay 0 slotOfNode? (inner.lookup "imei_slot")
      some ⟨aliasBase, imeiSlot⟩) := by
  cases h <;> rfl

/-- A table states two settings of logging, one that is absent none. -/
theorem Tabled.logging {node : Option Node} {inner : Entries} (h : Tabled node inner) :
    overlay .standard LoggingSettings.ofNode? node = (do
      let format ← overlay .text formatOfNode? (inner.lookup "format")
      let level ← overlay "info" textOfNode? (inner.lookup "level")
      some ⟨format, level⟩) := by
  cases h <;> rfl

variable {stated : Stated} {entries : Entries}

/-- **The four settings are read independently of one another.** -/
theorem In.ofEntries?_eq (h : stated.In entries) :
    Settings.ofEntries? entries = (do
      let slot ← overlay 0 slotOfNode? (stated.imeiSlot.map .integer)
      let format ← overlay .text formatOfNode? (stated.format.map .string)
      some ⟨⟨stated.base, slot⟩, ⟨format, stated.level.getD "info"⟩⟩) := by
  obtain ⟨first, hfirst, hbase, hslot⟩ := h.attestation
  obtain ⟨second, hsecond, hformat, hlevel⟩ := h.logging
  rw [Settings.ofEntries?, hfirst.attestation, hsecond.logging, hbase, hslot, hformat, hlevel,
    overlay_text, overlay_text]
  cases overlay 0 slotOfNode? (stated.imeiSlot.map .integer) with
  | none => rfl
  | some slot => cases overlay .text formatOfNode? (stated.format.map .string) <;> rfl

/-- Slot and form that there are give settings, each the stated one or else the standard one. -/
theorem In.exists_overlays (h : stated.In entries) (hreadable : stated.Readable) :
    ∃ s, Settings.ofEntries? entries = some s ∧ stated.Overlays s := by
  have hslot : ∃ slot, overlay 0 slotOfNode? (stated.imeiSlot.map .integer) = some slot ∧
      (slot.toNat : Int) = stated.imeiSlot.getD 0 := by
    cases hstated : stated.imeiSlot with
    | none => exact ⟨0, rfl, rfl⟩
    | some n =>
      have hn := hreadable.imeiSlot n hstated
      have hvalue : ((UInt32.ofNat n.toNat).toNat : Int) = n := by
        rw [UInt32.toNat_ofNat']
        omega
      exact ⟨UInt32.ofNat n.toNat, slotOfNode?_eq_some_iff.mpr hvalue, hvalue⟩
  have hformat : ∃ format, overlay .text formatOfNode? (stated.format.map .string) = some format ∧
      Named.name format = stated.format.getD "text" := by
    cases hstated : stated.format with
    | none => exact ⟨.text, rfl, rfl⟩
    | some text =>
      rcases hreadable.format text hstated with rfl | rfl
      · exact ⟨.text, rfl, rfl⟩
      · exact ⟨.json, rfl, rfl⟩
  obtain ⟨slot, hread, hslot⟩ := hslot
  obtain ⟨format, hread', hformat⟩ := hformat
  refine ⟨⟨⟨stated.base, slot⟩, ⟨format, stated.level.getD "info"⟩⟩, ?_, rfl, hslot, hformat, rfl⟩
  rw [h.ofEntries?_eq, hread, hread']
  rfl

/-- A slot or a form that there is not leaves nothing to read. -/
theorem In.ofEntries?_eq_none (h : stated.In entries) (hreadable : ¬ stated.Readable) :
    Settings.ofEntries? entries = none := by
  rw [h.ofEntries?_eq]
  by_cases hslot : ∀ n, stated.imeiSlot = some n → 0 ≤ n ∧ n < 2 ^ 32
  · have hformat : ∃ text, stated.format = some text ∧ ¬ (text = "text" ∨ text = "json") := by
      by_contra hall
      exact hreadable ⟨hslot, fun text htext => by_contra fun hno => hall ⟨text, htext, hno⟩⟩
    obtain ⟨text, htext, hno⟩ := hformat
    have hread : overlay .text formatOfNode? (stated.format.map .string) = none := by
      rw [htext]
      exact formatOfNode?_eq_none hno
    rw [hread]
    cases overlay 0 slotOfNode? (stated.imeiSlot.map .integer) <;> rfl
  · simp only [not_forall] at hslot
    obtain ⟨n, hn, hno⟩ := hslot
    have hread : overlay 0 slotOfNode? (stated.imeiSlot.map .integer) = none := by
      rw [hn]
      exact slotOfNode?_eq_none hno
    rw [hread]
    rfl

end Stated

/-! ### Bases and aliases -/

theorem isGraphic_iff {c : Char} : isGraphic c = true ↔ Visible c := by
  rw [isGraphic, Bool.and_eq_true, decide_eq_true_iff, decide_eq_true_iff, Char.le_def, Char.le_def,
    UInt32.le_iff_toNat_le, UInt32.le_iff_toNat_le]
  rfl

theorem visible_of_isDigit {c : Char} (h : c.isDigit = true) : Visible c := by
  rw [Char.isDigit, Bool.and_eq_true, decide_eq_true_iff, decide_eq_true_iff,
    UInt32.le_iff_toNat_le, ge_iff_le, UInt32.le_iff_toNat_le] at h
  obtain ⟨hlow, hhigh⟩ := h
  exact ⟨Nat.le_trans (by decide) hlow, Nat.le_trans hhigh (by decide)⟩

theorem visible_of_mem_repr {n : Nat} {c : Char} (h : c ∈ (Nat.repr n).toList) : Visible c := by
  rw [Nat.toList_repr] at h
  exact visible_of_isDigit (Nat.isDigit_of_mem_toDigits (by decide) (by decide) h)

/-- **The characters of an alias** are visible if those of its base are. -/
theorem visible_of_mem_alias {base : String} (hbase : ∀ c ∈ base.toList, Visible c) (id : Nat)
    (number : UInt64) : ∀ c ∈ (KeyAlias.mk base (.ofNat id) number).text.toList, Visible c := by
  intro c hc
  have hdash : Visible '-' := by decide
  rw [KeyAlias.toList_text] at hc
  simp only [List.mem_append, List.mem_cons] at hc
  rcases hc with (hc | rfl | hc) | rfl | hc
  · exact hbase c hc
  · exact hdash
  · exact visible_of_mem_repr hc
  · exact hdash
  · exact visible_of_mem_repr hc

namespace Settings

/-- Settings are valid exactly if the base of aliases is not empty and all visible. -/
theorem validate_eq_ok_iff {s : Settings} :
    s.validate = .ok () ↔
      s.attestation.aliasBase ≠ "" ∧ ∀ c ∈ s.attestation.aliasBase.toList, Visible c := by
  simp only [validate]
  by_cases hempty : s.attestation.aliasBase = ""
  · simp [hempty]
  · rw [if_neg hempty]
    simp only [← isGraphic_iff, ← List.all_eq_true]
    cases s.attestation.aliasBase.toList.all isGraphic <;> simp [hempty]

/-- The standard settings are valid. -/
theorem validate_standard : standard.validate = .ok () := by
  decide +kernel

theorem validate_of_empty {s : Settings} (h : s.attestation.aliasBase = "") :
    s.validate = .error .emptyBase := if_pos h

theorem validate_of_not_visible {s : Settings} {c : Char}
    (hc : c ∈ s.attestation.aliasBase.toList) (h : ¬ Visible c) :
    s.validate = .error (.badBase s.attestation.aliasBase) := by
  have hne : s.attestation.aliasBase ≠ "" := by
    intro hempty
    rw [hempty] at hc
    exact absurd hc List.not_mem_nil
  have hall : ¬ s.attestation.aliasBase.toList.all isGraphic = true := fun hall =>
    h (isGraphic_iff.mp (List.all_eq_true.mp hall c hc))
  exact (if_neg hne).trans (if_neg hall)

/-- Settings that are accepted are valid. -/
theorem validate_of_validated {s s' : Settings} (h : s.validated = .ok s') :
    s' = s ∧ s.validate = .ok () := by
  rw [validated] at h
  cases hvalid : s.validate with
  | error e => rw [hvalid] at h; cases h
  | ok u =>
    rw [hvalid] at h
    exact ⟨(Except.ok.inj h).symm, rfl⟩

theorem validated_of_validate {s : Settings} (h : s.validate = .ok ()) : s.validated = .ok s := by
  rw [validated, h]
  rfl

theorem validated_of_error {s : Settings} {e : SettingsError} (h : s.validate = .error e) :
    s.validated = .error e := by
  rw [validated, h]
  rfl

/-- Settings that a document gives have been read from it and are valid. -/
theorem ofEntries_eq_ok_iff {entries : Entries} {s : Settings} :
    ofEntries entries = .ok s ↔ ofEntries? entries = some s ∧ s.validate = .ok () := by
  rw [ofEntries]
  cases ofEntries? entries with
  | none => simp
  | some read =>
    constructor
    · intro h
      obtain ⟨rfl, hvalid⟩ := validate_of_validated h
      exact ⟨rfl, hvalid⟩
    · rintro ⟨heq, hvalid⟩
      obtain rfl := Option.some.inj heq
      exact validated_of_validate hvalid

theorem ofEntries_of_read {entries : Entries} {s : Settings} (h : ofEntries? entries = some s) :
    ofEntries entries = s.validated := by
  rw [ofEntries, h]

end Settings

/-! ### Whole documents -/

/-- What comes of a document that states this. -/
structure Stated.Yields (stated : Stated) (result : Except SettingsError Settings) : Prop where
  /-- With a slot and a form that there are, the base of aliases decides, -/
  accepted : stated.Readable →
    ((∃ s, result = .ok s) ↔ stated.base ≠ "" ∧ ∀ c ∈ stated.base.toList, Visible c)
  /-- and is told if it is not usable. -/
  empty : stated.Readable → stated.base = "" → result = .error .emptyBase
  bad : stated.Readable → ∀ c ∈ stated.base.toList, ¬ Visible c →
    result = .error (.badBase stated.base)
  /-- Otherwise the document is refused, whatever the base. -/
  refused : ¬ stated.Readable → result = .error .document
  /-- What is accepted is what is stated, and standard apart from that. -/
  overlays : ∀ s, result = .ok s → stated.Overlays s

theorem Stated.In.yields {stated : Stated} {entries : Entries} (h : stated.In entries) :
    stated.Yields (Settings.ofEntries entries) := by
  have read (hreadable : stated.Readable) := h.exists_overlays hreadable
  constructor
  case accepted =>
    intro hreadable
    obtain ⟨s, hs, hoverlays⟩ := read hreadable
    rw [← hoverlays.aliasBase, ← Settings.validate_eq_ok_iff]
    constructor
    · rintro ⟨s', hs'⟩
      obtain ⟨hread, hvalid⟩ := Settings.ofEntries_eq_ok_iff.mp hs'
      obtain rfl := Option.some.inj (hs.symm.trans hread)
      exact hvalid
    · exact fun hvalid => ⟨s, Settings.ofEntries_eq_ok_iff.mpr ⟨hs, hvalid⟩⟩
  case empty =>
    intro hreadable hempty
    obtain ⟨s, hs, hoverlays⟩ := read hreadable
    rw [Settings.ofEntries_of_read hs]
    exact Settings.validated_of_error
      (Settings.validate_of_empty (hoverlays.aliasBase.trans hempty))
  case bad =>
    intro hreadable c hc hinvisible
    obtain ⟨s, hs, hoverlays⟩ := read hreadable
    rw [← hoverlays.aliasBase] at hc ⊢
    rw [Settings.ofEntries_of_read hs]
    exact Settings.validated_of_error (Settings.validate_of_not_visible hc hinvisible)
  case refused =>
    intro hreadable
    rw [Settings.ofEntries, h.ofEntries?_eq_none hreadable]
  case overlays =>
    intro s hs
    obtain ⟨hread, -⟩ := Settings.ofEntries_eq_ok_iff.mp hs
    by_cases hreadable : stated.Readable
    · obtain ⟨s', hs', hoverlays⟩ := read hreadable
      obtain rfl := Option.some.inj (hs'.symm.trans hread)
      exact hoverlays
    · cases (h.ofEntries?_eq_none hreadable).symm.trans hread

/-- **Settings are the standard ones overlaid by a document, and then validated.**  A document that
states any of the four settings, in any order and beside anything else, is refused if slot or form
are none that there are, and otherwise accepted exactly if the base of aliases, stated or standard,
is not empty and all visible; then each setting is the stated one or else the standard one.  However
documents are read, a text gives what the document gives that it spells, and is refused like a
document that cannot be used if it spells none.  Whatever is accepted is valid once more, and every
alias that is ever drawn for it has visible characters only. -/
theorem settings_overlaid :
    (∀ entries stated, Stated.In stated entries → stated.Yields (Settings.ofEntries entries)) ∧
    (∀ read text,
      (∀ entries, read text = some entries →
        Settings.ofText read text = Settings.ofEntries entries) ∧
      (read text = none → Settings.ofText read text = .error .document)) ∧
    ∀ entries s, Settings.ofEntries entries = .ok s →
      s.validate = .ok () ∧
        ∀ (sequence : AliasSequence) (id : Nat),
          ∀ c ∈ (sequence.drawAlias (.ofNat id) s.attestation.aliasBase).1.text.toList,
            Visible c := by
  refine ⟨fun entries stated h => h.yields, fun read text => ⟨fun entries h => ?_, fun h => ?_⟩,
    fun entries s h => ?_⟩
  · rw [Settings.ofText, h]
  · rw [Settings.ofText, h]
  · obtain ⟨-, hvalid⟩ := Settings.ofEntries_eq_ok_iff.mp h
    obtain ⟨-, hvisible⟩ := Settings.validate_eq_ok_iff.mp hvalid
    exact ⟨hvalid, fun sequence id => visible_of_mem_alias hvisible id sequence.next⟩

/-- Documents with the tables in the other order, one of them inline, and with unknown names: a base
with a blank is refused, and without one the standard base and level go with the slot and the form
that are stated. -/
theorem inline_settings_overlaid :
    let logging : String × Node :=
      ("logging", .inline [("color", .boolean true), ("format", .string "json")])
    let refused : Entries :=
      [logging, ("unknown", .table .header []),
       ("attestation", .table .header [("alias_prefix", .string "a b"), ("imei_slot", .integer 1)])]
    let accepted : Entries :=
      [logging, ("attestation", .table .header [("extra", .array []), ("imei_slot", .integer 1)])]
    Stated.In ⟨some "a b", some 1, some "json", none⟩ refused ∧
      Settings.ofEntries refused = .error (.badBase "a b") ∧
      Stated.In ⟨none, some 1, some "json", none⟩ accepted ∧
      Settings.ofEntries accepted =
        .ok ⟨⟨"android_internal_device_id_attestation", 1⟩, ⟨.json, "info"⟩⟩ := by
  intro logging refused accepted
  have hrefused : Stated.In ⟨some "a b", some 1, some "json", none⟩ refused :=
    ⟨⟨_, .table .header _, rfl, rfl⟩, ⟨_, .inline _, rfl, rfl⟩⟩
  have haccepted : Stated.In ⟨none, some 1, some "json", none⟩ accepted :=
    ⟨⟨_, .table .header _, rfl, rfl⟩, ⟨_, .inline _, rfl, rfl⟩⟩
  have readable (base : Option String) : Stated.Readable ⟨base, some 1, some "json", none⟩ :=
    ⟨fun n hn => by cases hn; decide, fun text htext => by cases htext; exact .inr rfl⟩
  have hbad := (settings_overlaid.1 _ _ hrefused).bad (readable _) ' ' (by decide) (by decide)
  have hyields := settings_overlaid.1 _ _ haccepted
  obtain ⟨⟨⟨base, slot⟩, ⟨format, level⟩⟩, hs⟩ :=
    (hyields.accepted (readable _)).mpr (Settings.validate_eq_ok_iff.mp Settings.validate_standard)
  obtain ⟨hbase, hslot, hformat, hlevel⟩ := hyields.overlays _ hs
  have hone : slot = 1 := UInt32.toNat_inj.mp (Int.ofNat_inj.mp hslot)
  have hname : Named.name format = "json" := hformat
  have hjson : format = .json := by
    cases format with
    | text => exact absurd hname (by decide)
    | json => rfl
  obtain rfl : base = "android_internal_device_id_attestation" := hbase
  obtain rfl : level = "info" := hlevel
  exact ⟨hrefused, hbad, haccepted, hone ▸ hjson ▸ hs⟩

example :
    Settings.ofText Toml.readDocument
        "logging = \x7b color = true, format = \"json\" \x7d\n[attestation]\nimei_slot = 1\n" =
      .ok ⟨⟨"android_internal_device_id_attestation", 1⟩, ⟨.json, "info"⟩⟩ := by
  decide +kernel

end DeviceAttest
