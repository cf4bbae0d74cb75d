import DeviceAttest.KeyDescription.Parse
import DeviceAttest.Proofs.Der.Element
import DeviceAttest.Proofs.Der.Integer
import Mathlib.Data.List.Nodup

/-!
# Key descriptions are parsed as they were encoded

An encoded key description is parsed as the same one with its security levels in canonical form, as
long as its body is below 2^32 octets; a longer one is refused for its length (`parse_encode`).

The attested identifiers come back because every element of a list holds one of them and none is
held twice (`collectIds_map_element`), and a map is the map of its entries
(`AttestedIds.ofList_toList`).
-/

namespace DeviceAttest

open Der (Element)

/-! ### Canonical levels -/

namespace SecurityLevel

/-- A level in canonical form: one of the three named levels wherever its number is theirs. -/
def canonical : SecurityLevel → SecurityLevel
  | unknown level =>
    if level = 0 then software
    else if level = 1 then trustedEnvironment
    else if level = 2 then strongBox
    else unknown level
  | level => level

theorem ofInt64_toInt64 (level : SecurityLevel) : ofInt64 level.toInt64 = level.canonical := by
  cases level <;> rfl

/-- A level is in canonical form unless it is unknown under the number of a named one. -/
theorem canonical_eq_self_iff (level : SecurityLevel) :
    level.canonical = level ↔
      level ≠ unknown 0 ∧ level ≠ unknown 1 ∧ level ≠ unknown 2 := by
  cases level with
  | unknown level =>
    unfold canonical
    by_cases h₀ : level = 0
    · simp [h₀]
    · by_cases h₁ : level = 1
      · simp [h₁]
      · by_cases h₂ : level = 2
        · simp [h₂]
        · simp [h₀, h₁, h₂]
  | _ => simp [canonical]

end SecurityLevel

/-- A key description with its levels in canonical form. -/
def KeyDescription.canonical (d : KeyDescription) : KeyDescription :=
  { d with
    attestationLevel := d.attestationLevel.canonical
    keymasterLevel := d.keymasterLevel.canonical }

/-! ### Maps of attested identifiers -/

namespace AttestedIds

theorem mem_toList {ids : AttestedIds} {id : IdTag} {value : Bytes} :
    (id, value) ∈ ids.toList ↔ ids.get? id = some value := by
  have hall : id ∈ IdTag.all := by cases id <;> decide
  rw [toList, List.mem_filterMap]
  constructor
  · rintro ⟨id', -, hentry⟩
    obtain ⟨value', hget, heq⟩ := Option.map_eq_some_iff.mp hentry
    cases heq
    exact hget
  · intro hget
    exact ⟨id, hall, Option.map_eq_some_iff.mpr ⟨value, hget, rfl⟩⟩

/-- No tag has two entries. -/
theorem nodup_toList (ids : AttestedIds) : (ids.toList.map Prod.fst).Nodup := by
  have hentries : ids.toList.Nodup := by
    refine List.Nodup.filterMap ?_ (by decide)
    intro id id' entry hentry hentry'
    obtain ⟨value, -, rfl⟩ := Option.map_eq_some_iff.mp hentry
    obtain ⟨value', -, heq⟩ := Option.map_eq_some_iff.mp hentry'
    exact (congrArg Prod.fst heq).symm
  refine List.Nodup.map_on ?_ hentries
  rintro ⟨id, value⟩ h ⟨id', value'⟩ h' (rfl : id = id')
  have heq := (mem_toList.mp h).symm.trans (mem_toList.mp h')
  rw [Option.some.inj heq]

/-- Inserting entries under different tags gives these entries, and what was there elsewhere. -/
theorem get?_foldl_insert {entries : List (IdTag × Bytes)} (h : (entries.map Prod.fst).Nodup)
    (ids : AttestedIds) (id : IdTag) (value : Bytes) :
    (entries.foldl (fun ids (id, value) => ids.insert id value) ids).get? id = some value ↔
      (id, value) ∈ entries ∨ id ∉ entries.map Prod.fst ∧ ids.get? id = some value := by
  induction entries generalizing ids with
  | nil => simp
  | cons entry entries ih =>
    obtain ⟨id', value'⟩ := entry
    obtain ⟨hnot, htail⟩ := List.nodup_cons.mp h
    rw [List.foldl_cons, ih htail, get?_insert]
    by_cases hid : id' = id
    · subst hid
      have hmem : (id', value) ∉ entries := fun hmem =>
        hnot (List.mem_map.mpr ⟨_, hmem, rfl⟩)
      simp only [hmem, hnot, List.mem_cons, List.map_cons]
      simp [eq_comm]
    · have hid' : ¬ id = id' := fun h => hid h.symm
      simp [hid, hid']

/-- **A map is the map of its entries.** -/
theorem ofList_toList (ids : AttestedIds) : ofList ids.toList = ids := by
  refine ext_get fun id => Option.ext fun value => ?_
  rw [ofList, get?_foldl_insert ids.nodup_toList, mem_toList, get?_empty]
  simp

end AttestedIds

namespace KeyDescription

/-! ### Parts -/

theorem readPart_write {part : Part} {e : Element} (hclass : e.tagClass = .universal)
    (hnumber : e.number = part.number) (h : e.content.length < 2 ^ 32) (s : Bytes) :
    readPart part (e.write ++ s) = .ok (e.content, s) := by
  have hread : readElement (e.write ++ s) = .ok (e, s) := by
    rw [readElement, Element.read_write e h]
    rfl
  rw [readPart, hread]
  exact if_pos ⟨hclass, hnumber⟩

theorem readNumber_write {part : Part} {e : Element} {n : Int64}
    (hclass : e.tagClass = .universal) (hnumber : e.number = part.number)
    (hcontent : e.content = Der.Integer.content n) (s : Bytes) :
    readNumber part (e.write ++ s) = .ok (n, s) := by
  have hlength : e.content.length < 2 ^ 32 := by
    rw [hcontent]
    exact Nat.lt_of_le_of_lt (Der.Integer.content_spells n).2.1 (by decide)
  rw [readNumber, readPart_write hclass hnumber hlength]
  simp only [bind, Except.bind, hcontent, Der.Integer.read?_content]

/-! ### Attested identifiers -/

/-- The element of an identifier is recognized as its. -/
theorem idOfElement?_element (entry : IdTag × Bytes) :
    idOfElement? (AttestedIds.element entry) = some entry.1 := by
  rw [idOfElement?, if_pos ⟨rfl, rfl⟩]
  exact IdTag.ofNumber?_number entry.1

/-- The identifiers of a list's elements are collected, each with its value. -/
theorem collectIds_map_element {entries : List (IdTag × Bytes)}
    (h : (entries.map Prod.fst).Nodup) {ids : AttestedIds}
    (hnew : ∀ entry ∈ entries, ids.get? entry.1 = none)
    (hlength : ∀ entry ∈ entries, entry.2.length < 2 ^ 32) :
    collectIds ids (entries.map AttestedIds.element) =
      .ok (entries.foldl (fun ids (id, value) => ids.insert id value) ids) := by
  induction entries generalizing ids with
  | nil => rfl
  | cons entry entries ih =>
    obtain ⟨id, value⟩ := entry
    obtain ⟨hnot, htail⟩ := List.nodup_cons.mp h
    have hpart : readPart .octetString (AttestedIds.element (id, value)).content =
        .ok (value, []) := by
      have hwrite : readPart .octetString ((Der.octetString value).write ++ []) =
          .ok (value, []) :=
        readPart_write rfl rfl (hlength (id, value) List.mem_cons_self) []
      rwa [List.append_nil] at hwrite
    have hfree : ids.get? id = none := hnew _ List.mem_cons_self
    -- the tags differ, so inserting one leaves the others free
    have hnew' : ∀ entry ∈ entries, (ids.insert id value).get? entry.1 = none := by
      intro entry hentry
      have hne : ¬ id = entry.1 := fun heq =>
        hnot (heq ▸ List.mem_map.mpr ⟨entry, hentry, rfl⟩)
      rw [AttestedIds.get?_insert, if_neg hne]
      exact hnew entry (List.mem_cons_of_mem _ hentry)
    rw [List.map_cons, collectIds, idOfElement?_element]
    simp only [hpart, bind, Except.bind, hfree]
    exact ih htail hnew' fun entry hentry => hlength entry (List.mem_cons_of_mem _ hentry)

/-- The identifiers of an encoded list are collected. -/
theorem collectList_elements {ids : AttestedIds}
    (h : (ids.elements.flatMap Element.write).length < 2 ^ 32) :
    collectList .empty (ids.elements.flatMap Element.write) = .ok ids := by
  have hcontent : ∀ e ∈ ids.elements, e.content.length < 2 ^ 32 := fun e he =>
    Nat.lt_of_le_of_lt (Element.length_content_le he) h
  have hvalue : ∀ entry ∈ ids.toList, entry.2.length < 2 ^ 32 := by
    intro entry hentry
    have hle : (Der.octetString entry.2).content.length ≤
        ([Der.octetString entry.2].flatMap Element.write).length :=
      Element.length_content_le List.mem_cons_self
    have hlt := hcontent (AttestedIds.element entry) (List.mem_map_of_mem hentry)
    rw [List.flatMap_singleton] at hle
    exact Nat.lt_of_le_of_lt hle hlt
  have hcollect : collectIds .empty ids.elements = .ok ids := by
    rw [AttestedIds.elements, collectIds_map_element ids.nodup_toList (by simp) hvalue]
    exact congrArg Except.ok ids.ofList_toList
  rw [collectList, Element.scan_flatMap_write hcontent]
  simp only [bind, Except.bind, hcollect]

/-! ### Whole descriptions -/

/-- The body of a description is parsed as the description in canonical form. -/
theorem parseBody_body (d : KeyDescription) (h : d.body.length < 2 ^ 32) :
    parseBody d.body = .ok d.canonical := by
  have hcontent : ∀ e ∈ d.elements, e.content.length < 2 ^ 32 := fun e he =>
    Nat.lt_of_le_of_lt (Element.length_content_le he) h
  -- one equation for each part, whatever follows it
  have hinteger (n : Int64) (s : Bytes) :
      readNumber .integer ((Der.integer n).write ++ s) = .ok (n, s) :=
    readNumber_write rfl rfl rfl s
  have henumerated (n : Int64) (s : Bytes) :
      readNumber .enumerated ((Der.enumerated n).write ++ s) = .ok (n, s) :=
    readNumber_write rfl rfl rfl s
  have hchallenge (s : Bytes) : readPart .octetString ((Der.octetString d.challenge).write ++ s) =
      .ok (d.challenge, s) :=
    readPart_write rfl rfl (hcontent (Der.octetString d.challenge) (by simp [elements])) s
  have huniqueId (s : Bytes) : readPart .octetString ((Der.octetString d.uniqueId).write ++ s) =
      .ok (d.uniqueId, s) :=
    readPart_write rfl rfl (hcontent (Der.octetString d.uniqueId) (by simp [elements])) s
  have hsoftware (s : Bytes) : readPart .softwareList ((Der.sequence []).write ++ s) =
      .ok ([], s) :=
    readPart_write rfl rfl (by decide) s
  have hlist : (Der.sequence d.attestedIds.elements).content.length < 2 ^ 32 :=
    hcontent _ (by simp [elements])
  have hhardware (s : Bytes) :
      readPart .hardwareList ((Der.sequence d.attestedIds.elements).write ++ s) =
        .ok (d.attestedIds.elements.flatMap Element.write, s) :=
    readPart_write rfl rfl hlist s
  have hnone : collectList .empty [] = .ok .empty := @collectList_elements .empty (by decide)
  have hbody : d.body =
      (Der.integer d.attestationVersion).write ++
      ((Der.enumerated d.attestationLevel.toInt64).write ++
      ((Der.integer d.keymasterVersion).write ++
      ((Der.enumerated d.keymasterLevel.toInt64).write ++
      ((Der.octetString d.challenge).write ++ ((Der.octetString d.uniqueId).write ++
      ((Der.sequence []).write ++ ((Der.sequence d.attestedIds.elements).write ++ []))))))) :=
    rfl
  rw [parseBody, hbody]
  simp only [hinteger, henumerated, hchallenge, huniqueId, hsoftware, hhardware, hnone,
    collectList_elements hlist, bind, Except.bind, SecurityLevel.ofInt64_toInt64]
  rfl

/-- A description in canonical form is one whose levels are. -/
theorem canonical_eq_self_iff (d : KeyDescription) :
    d.canonical = d ↔
      (∀ n ∈ [0, 1, 2], d.attestationLevel ≠ .unknown n) ∧
        ∀ n ∈ [0, 1, 2], d.keymasterLevel ≠ .unknown n := by
  have hlevel (level : SecurityLevel) :
      level.canonical = level ↔ ∀ n ∈ [0, 1, 2], level ≠ .unknown n := by
    simp [level.canonical_eq_self_iff]
  rw [← hlevel, ← hlevel]
  obtain ⟨version, level, version', level', challenge, uniqueId, ids⟩ := d
  simp [canonical]

/-- **Key descriptions are parsed as they were encoded**, up to canonical levels and as long as
the body takes fewer than 2^32 octets; with more, the length is refused. -/
theorem parse_encode (d : KeyDescription) (h : d.body.length < 2 ^ 64) :
    (d.body.length < 2 ^ 32 →
      parse d.encode = .ok d.canonical ∧
        (parse d.encode = .ok d ↔
          (∀ n ∈ [0, 1, 2], d.attestationLevel ≠ .unknown n) ∧
            ∀ n ∈ [0, 1, 2], d.keymasterLevel ≠ .unknown n)) ∧
      (2 ^ 32 ≤ d.body.length →
        ∃ e, parse d.encode = .error e ∧ e.message = "invalid long-form length") := by
  have hencode : d.encode = (Der.sequence d.elements).write ++ [] := (List.append_nil _).symm
  constructor
  · intro hshort
    have hpart : readPart .description d.encode = .ok (d.body, []) := by
      rw [hencode]
      exact readPart_write rfl rfl hshort []
    have hparse : parse d.encode = .ok d.canonical := by
      rw [parse, hpart]
      exact parseBody_body d hshort
    refine ⟨hparse, ?_⟩
    rw [hparse, ← canonical_eq_self_iff]
    exact ⟨Except.ok.inj, congrArg Except.ok⟩
  · intro hlong
    have helement : readElement d.encode = .error (.element .badLength) := by
      rw [readElement, hencode, Element.read_write_long (Der.sequence d.elements) hlong h]
      rfl
    refine ⟨.element .badLength, ?_, rfl⟩
    rw [parse, readPart, helement]
    rfl

/-- A description with one level in canonical form and one that is not. -/
def sample : KeyDescription where
  attestationVersion := -129
  attestationLevel := .unknown 7
  keymasterVersion := 128
  keymasterLevel := .unknown 2
  challenge := List.replicate 130 7
  uniqueId := []
  attestedIds := AttestedIds.empty.insert .serial [1, 2]

theorem parse_encode_sample :
    sample.body.length < 2 ^ 32 ∧ parse sample.encode = .ok sample.canonical ∧
      parse sample.encode ≠ .ok sample := by
  have h : sample.body.length < 2 ^ 32 := by decide +kernel
  have hparse := (parse_encode sample (by omega)).1 h
  refine ⟨h, hparse.1, fun hsame => ?_⟩
  exact (hparse.2.mp hsame).2 2 (by decide) rfl

end KeyDescription

end DeviceAttest
