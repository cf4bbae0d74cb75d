import DeviceAttest.Proofs.Der.Distinguished
import DeviceAttest.Proofs.KeyDescription.Normal
import DeviceAttest.Proofs.KeyDescription.Placement

/-!
# Distinguished key descriptions

A layout is plain if nothing in it is left out when its description is written: the first list is
empty, the second one holds identifiers only, by ascending tags and each around one OCTET STRING,
and nothing follows it.

Every layout is read, in whatever spelling.  What is written for the description of a plain one is
the layout itself exactly if every part of it is distinguished and has the constructed bit of its
type; so each description that can be read has one distinguished encoding, the one that is written
(`encode_eq_iff_distinguished`).  `respelled` are spellings that are read and not written
(`respelled_accepted`).
-/

namespace DeviceAttest

open Der (Element Spelling)

namespace Der.Spelling

/-- A distinguished spelling of an element that is to be constructed, or is not. -/
def DistinguishedAs (p : Spelling) (constructed : Bool) : Prop :=
  p.constructed = constructed ∧ p.Distinguished

instance (p : Spelling) (constructed : Bool) : Decidable (p.DistinguishedAs constructed) :=
  inferInstanceAs (Decidable (_ ∧ _))

/-- The content of an element is one OCTET STRING. -/
def WrapsOnly (p value : Spelling) : Prop := p.content = value.octets ∧ value.Universal 4

/-- A universal element is spelled as it is written if it is distinguished and has the content. -/
theorem Universal.octets_eq_write_iff {p : Spelling} {tag : UInt32} (h : p.Universal tag)
    {constructed : Bool} {content : Bytes} (hcontent : content.length < 2 ^ 64) :
    p.octets = Element.write ⟨.universal, constructed, tag, content⟩ ↔
      p.DistinguishedAs constructed ∧ p.content = content := by
  have helement : p.element = ⟨.universal, constructed, tag, content⟩ ↔
      p.constructed = constructed ∧ p.content = content := by
    rw [element, h.1, h.2]
    simp
  rw [Spelling.octets_eq_write_iff hcontent, helement, DistinguishedAs, and_right_comm]

/-- A universal element is spelled as it is written for its number if it is distinguished and has no
redundant octet. -/
theorem Universal.octets_eq_write_number_iff {p : Spelling} {tag : UInt32} (h : p.Universal tag)
    {n : Int64} (hpos : 1 ≤ p.content.length) (hn : n.toInt = Integer.signed p.content) :
    p.octets = Element.write ⟨.universal, false, tag, Integer.content n⟩ ↔
      p.DistinguishedAs false ∧ Integer.Irredundant p.content := by
  have hcontent : (Integer.content n).length < 2 ^ 64 :=
    Nat.lt_of_le_of_lt (Integer.content_spells n).2.1 (by decide)
  rw [h.octets_eq_write_iff hcontent, Integer.eq_content_iff hpos hn]

theorem WrapsOnly.inj {p value value' : Spelling} (h : p.WrapsOnly value)
    (h' : p.WrapsOnly value') : value = value' :=
  (octets_append_inj (congrArg (· ++ []) (h.1.symm.trans h'.1))).1

/-- An OCTET STRING that was the content of an element is no longer when it is written. -/
theorem WrapsOnly.length_write_lt {p value : Spelling} (h : p.WrapsOnly value) :
    (Der.octetString value.content).write.length < 2 ^ 64 := by
  have hle : (Der.octetString value.content).write.length ≤ value.octets.length :=
    value.length_write_le h.2.2.symm (Nat.le_refl _)
  have hlt := p.length_content_lt
  rw [h.1] at hlt
  omega

end Der.Spelling

/-- The entries of a map stand by ascending tags. -/
theorem AttestedIds.ascending_toList (ids : AttestedIds) :
    ids.toList.Pairwise fun entry later => entry.1.number < later.1.number := by
  have hall : IdTag.all.Pairwise fun id later => id.number < later.number := by decide
  refine hall.filterMap _ fun id later hlt entry hentry entry' hentry' => ?_
  obtain ⟨value, -, rfl⟩ := Option.map_eq_some_iff.mp hentry
  obtain ⟨value', -, rfl⟩ := Option.map_eq_some_iff.mp hentry'
  exact hlt

namespace KeyDescription

/-! ### Elements of identifiers -/

/-- An element that holds an identifier and one OCTET STRING. -/
def Holds (p : Spelling) : Prop := p.HoldsId ∧ ∃ value, p.WrapsOnly value

/-- Both an element of an identifier and the OCTET STRING in it are distinguished. -/
def DistinguishedId (p : Spelling) : Prop :=
  p.DistinguishedAs true ∧ ∀ value, p.WrapsOnly value → value.DistinguishedAs false

/-- An element of an identifier attests what its OCTET STRING holds. -/
theorem Holds.exists_attested {p : Spelling} (h : Holds p) :
    ∃ id value, p.tag = id.number ∧ p.WrapsOnly value ∧
      attested? p.element = some (id, value.content) := by
  obtain ⟨hholds, value, honly⟩ := h
  obtain ⟨id, hid⟩ := IdTag.exists_number_iff.mpr hholds.2.2
  have hpart : readPart .octetString p.content = .ok (value.content, []) :=
    readPart_eq_ok_iff.mpr ⟨value, by rw [honly.1, List.append_nil], honly.2, rfl⟩
  exact ⟨id, value, hid, honly, attested?_eq_some_iff.mpr
    ⟨idOfElement?_element_eq_some_iff.mpr ⟨hholds, hid⟩, [], hpart⟩⟩

/-- An element of an identifier is spelled as it is written for what it attests exactly if it is
distinguished together with its OCTET STRING. -/
theorem Holds.octets_eq_write_iff {p value : Spelling} {id : IdTag} (h : Holds p)
    (htag : p.tag = id.number) (honly : p.WrapsOnly value) :
    p.octets = (AttestedIds.element (id, value.content)).write ↔ DistinguishedId p := by
  have hvalue : value.octets = (Der.octetString value.content).write ↔
      value.DistinguishedAs false ∧ value.content = value.content :=
    honly.2.octets_eq_write_iff (Nat.lt_trans value.length_content_lt (by decide))
  have helement : p.element = AttestedIds.element (id, value.content) ↔
      p.constructed = true ∧ p.content = (Der.octetString value.content).write := by
    rw [Spelling.element, h.1.1, htag, AttestedIds.element]
    simp
  have honce : (∀ v, p.WrapsOnly v → v.DistinguishedAs false) ↔ value.DistinguishedAs false :=
    ⟨fun hall => hall value honly, fun hone v hv => hv.inj honly ▸ hone⟩
  rw [Spelling.octets_eq_write_iff honly.length_write_lt, helement, honly.1, hvalue,
    and_iff_left rfl, and_right_comm, DistinguishedId, honce]
  rfl

/-- Elements of identifiers are spelled as they are written for what they attest exactly if all of
them are distinguished. -/
theorem flatMap_octets_eq_entries_iff {ps : List Spelling} (h : ∀ p ∈ ps, Holds p) :
    ps.flatMap Spelling.octets =
        ((entries (ps.map Spelling.element)).map AttestedIds.element).flatMap Element.write ↔
      ∀ p ∈ ps, DistinguishedId p := by
  induction ps with
  | nil => simp [entries]
  | cons p ps ih =>
    obtain ⟨hp, hps⟩ := List.forall_mem_cons.mp h
    obtain ⟨id, value, htag, honly, hattested⟩ := hp.exists_attested
    rw [List.map_cons, entries, List.filterMap_cons_some hattested, List.map_cons,
      List.flatMap_cons, List.flatMap_cons, List.forall_mem_cons, ← ih hps,
      ← hp.octets_eq_write_iff htag honly]
    exact Spelling.octets_append_eq_iff honly.length_write_lt

namespace Layout

/-! ### Plain layouts -/

/-- The first list is empty, the second one holds identifiers only, by ascending tags and each
around one OCTET STRING, and nothing follows it. -/
structure Plain (l : Layout) : Prop where
  unread : l.unread = []
  software : l.software = []
  holds : ∀ p ∈ l.hardware, Holds p
  ascending : l.hardware.Pairwise fun p q => p.tag < q.tag

/-- Every element is distinguished and has the constructed bit of its type, and no number has a
redundant octet. -/
structure Distinguished (l : Layout) : Prop where
  outer : l.outer.DistinguishedAs true
  leading : ∀ p ∈ l.toFields.leading, p.DistinguishedAs false
  softwareList : l.softwareList.DistinguishedAs true
  hardwareList : l.hardwareList.DistinguishedAs true
  numbers : ∀ p ∈ l.toFields.numbers, Der.Integer.Irredundant p.content
  ids : ∀ p ∈ l.hardware, DistinguishedId p

variable {l : Layout} {d : KeyDescription}

/-- A plain layout attests its identifiers in the order in which they are written. -/
theorem Plain.entries_eq (h : l.Plain) (hd : l.Describes d) :
    d.attestedIds.toList = entries (l.hardware.map Spelling.element) := by
  have hperm := hd.perm_entries
  rw [listed, h.software, List.nil_append] at hperm
  have hascending : (entries (l.hardware.map Spelling.element)).Pairwise
      fun entry later => entry.1.number < later.1.number := by
    rw [entries, List.pairwise_filterMap, List.pairwise_map]
    refine h.ascending.imp fun hlt entry hentry entry' hentry' => ?_
    have htag := idOfElement?_element_eq_some_iff.mp (attested?_eq_some_iff.mp hentry).1
    have htag' := idOfElement?_element_eq_some_iff.mp (attested?_eq_some_iff.mp hentry').1
    rwa [← htag.2, ← htag'.2]
  exact hperm.eq_of_pairwise (fun _ _ _ _ hlt hgt => absurd hgt (UInt32.lt_asymm hlt))
    d.attestedIds.ascending_toList hascending

theorem Describes.length_body_lt (hd : l.Describes d) : d.body.length < 2 ^ 64 := by
  have hle := hd.length_body_le
  have houter := l.outer.length_content_lt
  omega

/-- The layout is what is written exactly if the outer element is distinguished and holds what is
written in it. -/
theorem Describes.octets_eq_encode_iff (hd : l.Describes d) :
    l.octets = d.encode ↔ l.outer.DistinguishedAs true ∧ l.outer.content = d.body :=
  l.outer_universal.octets_eq_write_iff hd.length_body_lt

/-- The fields are those that are written exactly if they are distinguished, no number has a
redundant octet, and the lists hold what is written in them. -/
theorem Describes.fields_eq_body_iff (hd : l.Describes d) :
    l.toFields.toList.flatMap Spelling.octets = d.body ↔
      ((∀ p ∈ l.toFields.leading, p.DistinguishedAs false) ∧
        ∀ p ∈ l.toFields.numbers, Der.Integer.Irredundant p.content) ∧
      (l.softwareList.DistinguishedAs true ∧ l.softwareList.content = []) ∧
      l.hardwareList.DistinguishedAs true ∧
        l.hardwareList.content = d.attestedIds.elements.flatMap Element.write := by
  have hshort : ∀ e ∈ d.elements, e.content.length < 2 ^ 64 := fun e he =>
    Nat.lt_of_le_of_lt (Element.length_content_le he) hd.length_body_lt
  have hfields : l.toFields.toList.flatMap Spelling.octets ++ [] =
      d.elements.flatMap Element.write ++ [] ↔ _ ∧ _ :=
    Spelling.flatMap_octets_append_eq_iff hshort rfl
  have huniversal := l.universal
  have hlengths := l.length_numbers
  simp only [Fields.toList, Fields.tags, List.forall₂_cons] at huniversal
  simp only [Fields.numbers, List.forall_mem_cons] at hlengths
  simp only [elements, List.forall_mem_cons] at hshort
  obtain ⟨hu₁, hu₂, hu₃, hu₄, hu₅, hu₆, hu₇, hu₈, -⟩ := huniversal
  obtain ⟨⟨hpos₁, -⟩, ⟨hpos₂, -⟩, ⟨hpos₃, -⟩, ⟨hpos₄, -⟩, -⟩ := hlengths
  obtain ⟨-, -, -, -, hs₅, hs₆, hs₇, hs₈, -⟩ := hshort
  obtain ⟨hlevel, -⟩ := SecurityLevel.hasNumber_iff.mp hd.attestationLevel
  obtain ⟨hlevel', -⟩ := SecurityLevel.hasNumber_iff.mp hd.keymasterLevel
  have h₁ : _ = (Der.integer _).write ↔ _ :=
    hu₁.octets_eq_write_number_iff hpos₁ hd.attestationVersion
  have h₂ : _ = (Der.enumerated _).write ↔ _ := hu₂.octets_eq_write_number_iff hpos₂ hlevel
  have h₃ : _ = (Der.integer _).write ↔ _ :=
    hu₃.octets_eq_write_number_iff hpos₃ hd.keymasterVersion
  have h₄ : _ = (Der.enumerated _).write ↔ _ := hu₄.octets_eq_write_number_iff hpos₄ hlevel'
  have h₅ : _ = (Der.octetString d.challenge).write ↔ _ :=
    (hu₅.octets_eq_write_iff hs₅).trans (and_iff_left hd.challenge.symm)
  have h₆ : _ = (Der.octetString d.uniqueId).write ↔ _ :=
    (hu₆.octets_eq_write_iff hs₆).trans (and_iff_left hd.uniqueId.symm)
  have h₇ : _ = (Der.sequence []).write ↔ _ := hu₇.octets_eq_write_iff hs₇
  have h₈ : _ = (Der.sequence d.attestedIds.elements).write ↔ _ := hu₈.octets_eq_write_iff hs₈
  rw [List.append_nil, List.append_nil, and_iff_left rfl] at hfields
  rw [body, hfields]
  simp only [Fields.toList, elements, List.forall₂_cons, List.Forall₂.nil, and_true, h₁, h₂, h₃, h₄,
    h₅, h₆, h₇, h₈, Fields.leading, Fields.numbers, List.take, List.forall_mem_cons,
    List.flatMap_nil, List.not_mem_nil, false_implies, implies_true]
  constructor
  · rintro ⟨⟨hd₁, hi₁⟩, ⟨hd₂, hi₂⟩, ⟨hd₃, hi₃⟩, ⟨hd₄, hi₄⟩, hd₅, hd₆, hlists⟩
    exact ⟨⟨⟨hd₁, hd₂, hd₃, hd₄, hd₅, hd₆⟩, hi₁, hi₂, hi₃, hi₄⟩, hlists⟩
  · rintro ⟨⟨⟨hd₁, hd₂, hd₃, hd₄, hd₅, hd₆⟩, hi₁, hi₂, hi₃, hi₄⟩, hlists⟩
    exact ⟨⟨hd₁, hi₁⟩, ⟨hd₂, hi₂⟩, ⟨hd₃, hi₃⟩, ⟨hd₄, hi₄⟩, hd₅, hd₆, hlists⟩

/-- **A plain layout is written again for its description exactly if it is distinguished.** -/
theorem Plain.encode_eq_octets_iff (h : l.Plain) (hd : l.Describes d) :
    d.encode = l.octets ↔ l.Distinguished := by
  have hsoftware : l.softwareList.content = [] := by rw [l.content_software, h.software]; rfl
  have hids : l.hardwareList.content = d.attestedIds.elements.flatMap Element.write ↔
      ∀ p ∈ l.hardware, DistinguishedId p := by
    rw [l.content_hardware, AttestedIds.elements, h.entries_eq hd]
    exact flatMap_octets_eq_entries_iff h.holds
  rw [eq_comm, hd.octets_eq_encode_iff, l.content_outer, h.unread, List.append_nil,
    hd.fields_eq_body_iff, and_iff_left hsoftware, hids]
  constructor
  · rintro ⟨houter, ⟨hleading, hnumbers⟩, hsoftwareList, hhardwareList, hids⟩
    exact ⟨houter, hleading, hsoftwareList, hhardwareList, hnumbers, hids⟩
  · rintro ⟨houter, hleading, hsoftwareList, hhardwareList, hnumbers, hids⟩
    exact ⟨houter, ⟨hleading, hnumbers⟩, hsoftwareList, hhardwareList, hids⟩

/-- An element that is written for an identifier holds it. -/
theorem holds_of_element_eq {p : Spelling} {entry : IdTag × Bytes}
    (h : p.element = AttestedIds.element entry) : Holds p := by
  have hclass : p.tagClass = .contextSpecific := congrArg Element.tagClass h
  have hbit : p.constructed = true := congrArg Element.constructed h
  have htag : p.tag = entry.1.number := congrArg Element.number h
  have hcontent : p.content = (Der.octetString entry.2).write := congrArg Element.content h
  have hshort : (Der.octetString entry.2).content.length < 2 ^ 32 := by
    have hlt := p.length_content_lt
    rw [hcontent, Element.write, List.length_append] at hlt
    omega
  obtain ⟨value, hvalue, helement, -⟩ := Element.exists_octets_eq_write hshort
  refine ⟨⟨hclass, hbit, IdTag.exists_number_iff.mp ⟨entry.1, htag⟩⟩, value, ?_, ?_⟩
  · rw [hcontent, hvalue]
  · exact ⟨congrArg Element.tagClass helement, congrArg Element.number helement⟩

/-- **What is written is laid out plainly.** -/
theorem Describes.plain (hd : l.Describes d) (h : l.octets = d.encode) : l.Plain := by
  obtain ⟨-, hcontent⟩ := hd.octets_eq_encode_iff.mp h
  have hshort (e : Element) (he : e ∈ d.elements) : e.content.length < 2 ^ 64 :=
    Nat.lt_of_le_of_lt (Element.length_content_le he) hd.length_body_lt
  have hwhole : l.toFields.toList.flatMap Spelling.octets ++ l.unread =
      d.elements.flatMap Element.write ++ [] := by
    rw [← l.content_outer, hcontent, List.append_nil, body]
  obtain ⟨-, hunread⟩ := (Spelling.flatMap_octets_append_eq_iff hshort rfl).mp hwhole
  rw [hunread, List.append_cancel_right_eq] at hwhole
  obtain ⟨-, ⟨-, hsoftware⟩, -, hhardware⟩ := hd.fields_eq_body_iff.mp hwhole
  rw [l.content_software] at hsoftware
  have hheld : ∀ e ∈ d.attestedIds.elements, e.content.length < 2 ^ 32 := fun e he => by
    have hle := Element.length_content_le he
    rw [← hhardware] at hle
    exact Nat.lt_of_le_of_lt hle l.hardwareList.length_content_lt
  rw [l.content_hardware] at hhardware
  have hmap : l.hardware.map Spelling.element = d.attestedIds.toList.map AttestedIds.element :=
    Spelling.map_element_of_flatMap_octets_eq hheld hhardware
  refine ⟨hunread, Spelling.eq_nil_of_flatMap_octets_eq hsoftware, fun p hp => ?_, ?_⟩
  · have hmem : p.element ∈ d.attestedIds.toList.map AttestedIds.element :=
      hmap ▸ List.mem_map_of_mem hp
    obtain ⟨entry, -, hentry⟩ := List.mem_map.mp hmem
    exact holds_of_element_eq hentry.symm
  · have hascending : (d.attestedIds.toList.map AttestedIds.element).Pairwise
        fun e later => e.number < later.number :=
      List.pairwise_map.mpr d.attestedIds.ascending_toList
    rw [← hmap, List.pairwise_map] at hascending
    exact hascending

end Layout

/-! ### Encodings again -/

/-- **Writing a plain layout again gives its octets exactly if they are distinguished.**  Whatever
is parsed is some layout, and every layout is parsed, distinguished or not.  The distinguished
octets of plain layouts that are parsed as a description are those that are written for it, if it is
in canonical form and its body is below 2^32 octets. -/
theorem encode_eq_iff_distinguished :
    (∀ s d, parse s = .ok d → ∃ l : Layout, l.octets = s) ∧
      (∀ l : Layout, ∃ d, parse l.octets = .ok d ∧
        (l.Plain → (d.encode = l.octets ↔ l.Distinguished))) ∧
      ∀ s d, (parse s = .ok d ∧ ∃ l : Layout, l.octets = s ∧ l.Plain ∧ l.Distinguished) ↔
        s = d.encode ∧ d.canonical = d ∧ d.body.length < 2 ^ 32 := by
  refine ⟨fun s d hparse => ?_, fun l => ?_, fun s d => ?_⟩
  · obtain ⟨l, hl, -⟩ := parse_iff_describes.mp hparse
    exact ⟨l, hl⟩
  · obtain ⟨d, hd⟩ := l.exists_describes
    exact ⟨d, Layout.parse_octets_iff.mpr hd, fun hplain => hplain.encode_eq_octets_iff hd⟩
  · constructor
    · rintro ⟨hparse, l, rfl, hplain, hdistinguished⟩
      have hd := Layout.parse_octets_iff.mp hparse
      have hencode := (hplain.encode_eq_octets_iff hd).mpr hdistinguished
      obtain ⟨-, hcontent⟩ := hd.octets_eq_encode_iff.mp hencode.symm
      exact ⟨hencode.symm, hd.canonical_eq, hcontent ▸ l.outer.length_content_lt⟩
    · rintro ⟨rfl, hcanonical, hbody⟩
      have hparse := parse_encode_canonical hbody
      rw [hcanonical] at hparse
      obtain ⟨l, hl, hd⟩ := parse_iff_describes.mp hparse
      have hplain := hd.plain hl
      exact ⟨hparse, l, hl, hplain, (hplain.encode_eq_octets_iff hd).mp hl.symm⟩

/-- The element of a brand with its number and its length in the fewest octets. -/
def distinguishedBrand : Spelling :=
  { shortBrand with
    size := foreign.size
    spells_length := foreign.spells_length }

/-- The OCTET STRING in this element. -/
def distinguishedValue : Spelling :=
  { foreignFields.challenge with
    size := bareImei.size
    content := [0x68, 0x69]
    spells_length := bareImei.spells_length }

theorem wrapsOnly_distinguishedValue : distinguishedBrand.WrapsOnly distinguishedValue :=
  ⟨rfl, rfl, rfl⟩

/-- The fields of a description with this element in its last list. -/
def distinguishedFields : Fields :=
  { foreignFields with
    hardwareList :=
      { foreignFields.hardwareList with
        size := [8]
        content := distinguishedBrand.octets
        spells_length := .short (by decide) } }

/-- The layout of these fields. -/
def distinguishedLayout : Layout where
  toFields := distinguishedFields
  outer :=
    { foreignLayout.outer with
      size := [28]
      content := distinguishedFields.toList.flatMap Spelling.octets
      spells_length := .short (by decide) }
  unread := []
  software := []
  hardware := [distinguishedBrand]
  outer_universal := ⟨rfl, rfl⟩
  content_outer := rfl
  universal :=
    .cons ⟨rfl, rfl⟩ <| .cons ⟨rfl, rfl⟩ <| .cons ⟨rfl, rfl⟩ <| .cons ⟨rfl, rfl⟩ <|
      .cons ⟨rfl, rfl⟩ <| .cons ⟨rfl, rfl⟩ <| .cons ⟨rfl, rfl⟩ <| .cons ⟨rfl, rfl⟩ .nil
  length_numbers := foreignLayout.length_numbers
  content_software := rfl
  content_hardware := rfl
  wrapping := by
    rintro p hp -
    obtain rfl := List.mem_singleton.mp hp
    exact ⟨_, foreign_wraps⟩
  distinct := List.pairwise_singleton _ _

theorem encode_distinguishedLayout :
    distinguishedLayout.Plain ∧ distinguishedLayout.Distinguished ∧
      ∃ d, parse distinguishedLayout.octets = .ok d ∧ d.encode = distinguishedLayout.octets := by
  have hplain : distinguishedLayout.Plain := by
    refine ⟨rfl, rfl, List.forall_mem_singleton.mpr ?_, List.pairwise_singleton _ _⟩
    exact ⟨⟨rfl, rfl, by decide, by decide⟩, _, wrapsOnly_distinguishedValue⟩
  have hdistinguished : distinguishedLayout.Distinguished := by
    refine ⟨by decide, by decide, by decide, by decide, by decide, ?_⟩
    refine List.forall_mem_singleton.mpr ⟨by decide, fun value honly => ?_⟩
    obtain rfl := honly.inj wrapsOnly_distinguishedValue
    decide
  obtain ⟨d, hparse, hencode⟩ := encode_eq_iff_distinguished.2.1 distinguishedLayout
  exact ⟨hplain, hdistinguished, d, hparse, (hencode hplain).mpr hdistinguished⟩

/-! ### Respelled descriptions -/

/-- The fields of a description without identifiers. -/
def bareFields : Fields := { foreignFields with hardwareList := foreignFields.softwareList }

/-- The same in other spellings: a tag number below 31 in digits of its own, a length below 128 in
two octets, a number with redundant octets, a SEQUENCE that is not constructed, and an OCTET STRING
that is. -/
def respelled : List Fields :=
  [{ bareFields with
      attestationVersion :=
        { bareFields.attestationVersion with
          first := 0x1f
          digits := [2]
          spells_number := .high (by decide) (.last (by decide)) } },
   { bareFields with
      challenge :=
        { bareFields.challenge with
          size := [0x81, 0]
          spells_length := .long (by decide) (by decide) (by decide) } },
   { bareFields with
      attestationVersion :=
        { bareFields.attestationVersion with
          size := [3]
          content := [0, 0, 3]
          spells_length := .short (by decide) } },
   { bareFields with
      softwareList :=
        { bareFields.softwareList with
          first := 0x10
          spells_number := .low (by decide) } },
   { bareFields with
      challenge :=
        { bareFields.challenge with
          first := 0x24
          spells_number := .low (by decide) } }]

/-- The octets of fields in the SEQUENCE that is written around them. -/
def Fields.enclosed (f : Fields) : Bytes :=
  Element.write ⟨.universal, true, Der.sequenceNumber, f.toList.flatMap Spelling.octets⟩

/-- Fields that are parsed, with two empty lists, have a plain layout. -/
theorem Fields.exists_plain {f : Fields} {d : KeyDescription} (h : parse f.enclosed = .ok d)
    (hshort : (f.toList.flatMap Spelling.octets).length < 2 ^ 32)
    (hsoftware : f.softwareList.content = []) (hhardware : f.hardwareList.content = []) :
    ∃ l : Layout, l.octets = f.enclosed ∧ l.toFields = f ∧ l.Plain := by
  obtain ⟨l, hl, -⟩ := parse_iff_describes.mp h
  have houter : l.outer.octets = Element.write ⟨_, _, _, f.toList.flatMap Spelling.octets⟩ := hl
  rw [Spelling.octets_eq_write_iff (Nat.lt_trans hshort (by decide))] at houter
  have hcontent : l.outer.content = f.toList.flatMap Spelling.octets :=
    congrArg Element.content houter.1
  have hfields : l.toFields.toList.flatMap Spelling.octets ++ l.unread =
      f.toList.flatMap Spelling.octets ++ [] := by
    rw [← l.content_outer, hcontent, List.append_nil]
  obtain ⟨rfl, hunread⟩ := Fields.octets_append_inj hfields
  rw [l.content_software] at hsoftware
  rw [l.content_hardware] at hhardware
  have hnone := Spelling.eq_nil_of_flatMap_octets_eq hhardware
  refine ⟨l, hl, rfl, hunread, Spelling.eq_nil_of_flatMap_octets_eq hsoftware, ?_, ?_⟩
  · rw [hnone]
    exact List.forall_mem_nil _
  · rw [hnone]
    exact .nil

/-- **Descriptions are read in other spellings, too**, and not written again as they were. -/
theorem respelled_accepted :
    ∃ d, ∀ f ∈ respelled, parse f.enclosed = .ok d ∧ d.encode ≠ f.enclosed ∧
      ∃ l : Layout, l.octets = f.enclosed ∧ l.toFields = f ∧ l.Plain := by
  let d : KeyDescription := ⟨3, .software, 4, .software, [], [], .empty⟩
  have hrespelled : ∀ f ∈ respelled, (parse f.enclosed = .ok d ∧ d.encode ≠ f.enclosed) ∧
      (f.toList.flatMap Spelling.octets).length < 2 ^ 32 ∧
      f.softwareList.content = [] ∧ f.hardwareList.content = [] := by
    decide +kernel
  refine ⟨d, fun f hf => ?_⟩
  obtain ⟨⟨hparse, hne⟩, hshort, hsoftware, hhardware⟩ := hrespelled f hf
  exact ⟨hparse, hne, Fields.exists_plain hparse hshort hsoftware hhardware⟩

end KeyDescription

end DeviceAttest
