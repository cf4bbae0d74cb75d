import DeviceAttest.Proofs.Der.Signed
import DeviceAttest.Proofs.Der.Spelling
import DeviceAttest.Proofs.KeyDescription.Collection

/-!
# The layout of a key description

The grammar of key descriptions, apart from any reader.  A `Layout` is an element whose content
begins with eight elements of given tags, the last two of which are lists of elements; the elements
of identifiers in these lists begin with an OCTET STRING and have different tags.  What a layout
says is told by `Layout.Describes`.

A byte string is parsed exactly if it is laid out so, and as what its layout says
(`parse_eq_ok_iff_layout`).
-/

namespace DeviceAttest

open Der (Element Spelling)

/-! ### The grammar -/

namespace Der.Spelling

/-- An element of the universal class with a tag, constructed or not. -/
def Universal (p : Spelling) (tag : UInt32) : Prop := p.tagClass = .universal ∧ p.tag = tag

/-- An element that is to hold an identifier: constructed, of the context class and with a tag from
710 to 717. -/
def HoldsId (p : Spelling) : Prop :=
  p.tagClass = .contextSpecific ∧ p.constructed ∧ 710 ≤ p.tag ∧ p.tag ≤ 717

/-- The content of an element begins with an OCTET STRING of some bytes. -/
def Wraps (p : Spelling) (bytes : Bytes) : Prop :=
  ∃ (value : Spelling) (more : Bytes),
    p.content = value.octets ++ more ∧ value.Universal 4 ∧ value.content = bytes

end Der.Spelling

/-- The level that has a number: one of the named ones for 0, 1 and 2. -/
def SecurityLevel.HasNumber (n : Int) : SecurityLevel → Prop
  | .software           => n = 0
  | .trustedEnvironment => n = 1
  | .strongBox          => n = 2
  | .unknown level      => level.toInt = n ∧ n ≠ 0 ∧ n ≠ 1 ∧ n ≠ 2

namespace KeyDescription

/-- The eight parts of a key description as they are spelled. -/
structure Fields where
  attestationVersion : Spelling
  attestationLevel : Spelling
  keymasterVersion : Spelling
  keymasterLevel : Spelling
  challenge : Spelling
  uniqueId : Spelling
  softwareList : Spelling
  hardwareList : Spelling

namespace Fields

/-- All fields, in order. -/
def toList (f : Fields) : List Spelling :=
  [f.attestationVersion, f.attestationLevel, f.keymasterVersion, f.keymasterLevel, f.challenge,
   f.uniqueId, f.softwareList, f.hardwareList]

/-- The fields that hold numbers. -/
def numbers (f : Fields) : List Spelling :=
  [f.attestationVersion, f.attestationLevel, f.keymasterVersion, f.keymasterLevel]

/-- The tags of all fields: INTEGER, ENUMERATED, INTEGER, ENUMERATED, two OCTET STRINGs, two
SEQUENCEs. -/
def tags : List UInt32 := [2, 10, 2, 10, 4, 4, 16, 16]

/-- What the fields before the lists say. -/
structure Say (f : Fields) (d : KeyDescription) : Prop where
  attestationVersion : d.attestationVersion.toInt = Der.Integer.signed f.attestationVersion.content
  attestationLevel : d.attestationLevel.HasNumber (Der.Integer.signed f.attestationLevel.content)
  keymasterVersion : d.keymasterVersion.toInt = Der.Integer.signed f.keymasterVersion.content
  keymasterLevel : d.keymasterLevel.HasNumber (Der.Integer.signed f.keymasterLevel.content)
  challenge : d.challenge = f.challenge.content
  uniqueId : d.uniqueId = f.uniqueId.content

end Fields

/-- A byte string laid out as a key description. -/
structure Layout extends Fields where
  outer : Spelling
  /-- What follows the eighth field. -/
  unread : Bytes
  software : List Spelling
  hardware : List Spelling
  outer_universal : outer.Universal 16
  content_outer : outer.content = toFields.toList.flatMap Spelling.octets ++ unread
  universal : List.Forall₂ Spelling.Universal toFields.toList Fields.tags
  length_numbers : ∀ p ∈ toFields.numbers, 1 ≤ p.content.length ∧ p.content.length ≤ 8
  content_software : toFields.softwareList.content = software.flatMap Spelling.octets
  content_hardware : toFields.hardwareList.content = hardware.flatMap Spelling.octets
  wrapping : ∀ p ∈ software ++ hardware, p.HoldsId → ∃ bytes, p.Wraps bytes
  distinct : (software ++ hardware).Pairwise fun p q => p.HoldsId → q.HoldsId → p.tag ≠ q.tag

namespace Layout

/-- All octets of a layout. -/
def octets (l : Layout) : Bytes := l.outer.octets

/-- The elements of both lists. -/
def listed (l : Layout) : List Spelling := l.software ++ l.hardware

/-- Some element of the two lists holds an identifier with these bytes. -/
def Attests (l : Layout) (id : IdTag) (bytes : Bytes) : Prop :=
  ∃ p ∈ l.listed, p.HoldsId ∧ p.tag = id.number ∧ p.Wraps bytes

/-- What a layout says. -/
structure Describes (l : Layout) (d : KeyDescription) : Prop extends l.toFields.Say d where
  attestedIds : ∀ id bytes, d.attestedIds.get? id = some bytes ↔ l.Attests id bytes

end Layout

end KeyDescription

/-! ### Numbers of identifiers and levels -/

namespace IdTag

theorem ofNumber?_eq_some_iff {n : UInt32} {id : IdTag} :
    ofNumber? n = some id ↔ n = id.number := by
  constructor
  · intro h
    have hfound := List.find?_some h
    exact (beq_iff_eq.mp hfound).symm
  · rintro rfl
    exact ofNumber?_number id

/-- The numbers of the identifiers are those from 710 to 717. -/
theorem exists_number_iff {n : UInt32} :
    (∃ id : IdTag, n = id.number) ↔ 710 ≤ n ∧ n ≤ 717 := by
  constructor
  · rintro ⟨id, rfl⟩
    cases id <;> decide
  · rintro ⟨hge, hle⟩
    have hge' : 710 ≤ n.toNat := UInt32.le_iff_toNat_le.mp hge
    have hle' : n.toNat ≤ 717 := UInt32.le_iff_toNat_le.mp hle
    have hall : ∀ k : Fin 8, ∃ id ∈ all, UInt32.ofNat (710 + k.val) = id.number := by decide
    obtain ⟨id, -, hid⟩ := hall ⟨n.toNat - 710, by omega⟩
    refine ⟨id, ?_⟩
    rw [← hid, Nat.add_sub_cancel' hge', UInt32.ofNat_toNat]

end IdTag

namespace SecurityLevel

theorem hasNumber_iff {level : SecurityLevel} {n : Int} :
    level.HasNumber n ↔ level.toInt64.toInt = n ∧ level = ofInt64 level.toInt64 := by
  have hzero {m : Int64} : m.toInt = 0 ↔ m = 0 := Int64.toInt_inj (y := 0)
  have hone {m : Int64} : m.toInt = 1 ↔ m = 1 := Int64.toInt_inj (y := 1)
  have htwo {m : Int64} : m.toInt = 2 ↔ m = 2 := Int64.toInt_inj (y := 2)
  cases level with
  | unknown level => grind [HasNumber, ofInt64, toInt64]
  | _ => exact ⟨fun h => ⟨h.symm, rfl⟩, fun h => h.1.symm⟩

end SecurityLevel

/-! ### Parts are spellings -/

namespace KeyDescription

theorem readPart_eq_ok_iff {part : Part} {s content rest : Bytes} :
    readPart part s = .ok (content, rest) ↔
      ∃ p : Spelling, p.octets ++ rest = s ∧ p.Universal part.number ∧ p.content = content := by
  unfold readPart readElement
  constructor
  · intro h
    obtain ⟨⟨e, rest'⟩, hread, h⟩ := bind_eq_ok.mp h
    cases hr : Element.read s with
    | error failure =>
      rw [hr] at hread
      cases hread
    | ok q =>
      rw [hr] at hread
      obtain rfl := Except.ok.inj hread
      obtain ⟨p, hs, rfl⟩ := Element.read_eq_ok_iff.mp hr
      simp only at h
      split at h
      · rename_i huniversal
        obtain ⟨rfl, rfl⟩ := Prod.mk.inj (Except.ok.inj h)
        exact ⟨p, hs, huniversal, rfl⟩
      · cases h
  · rintro ⟨p, rfl, huniversal, rfl⟩
    rw [Element.read_octets]
    exact if_pos huniversal

theorem readNumber_eq_ok_iff {part : Part} {s rest : Bytes} {n : Int64} :
    readNumber part s = .ok (n, rest) ↔
      ∃ p : Spelling, p.octets ++ rest = s ∧ p.Universal part.number ∧
        Der.Integer.read? p.content = some n := by
  unfold readNumber
  simp only [bind_eq_ok, Prod.exists, readPart_eq_ok_iff]
  constructor
  · rintro ⟨content, rest', ⟨p, hs, huniversal, rfl⟩, h⟩
    split at h
    · rename_i n' hn
      obtain ⟨rfl, rfl⟩ := Prod.mk.inj (Except.ok.inj h)
      exact ⟨p, hs, huniversal, hn⟩
    · cases h
  · rintro ⟨p, hs, huniversal, hn⟩
    refine ⟨p.content, rest, ⟨p, hs, huniversal, rfl⟩, ?_⟩
    rw [hn]

/-! ### Identifiers in lists of spellings -/

theorem idOfElement?_element_eq_some_iff {p : Spelling} {id : IdTag} :
    idOfElement? p.element = some id ↔ p.HoldsId ∧ p.tag = id.number := by
  have hrange : p.tag = id.number → 710 ≤ p.tag ∧ p.tag ≤ 717 := fun h =>
    IdTag.exists_number_iff.mp ⟨id, h⟩
  unfold idOfElement? Spelling.HoldsId
  by_cases h : p.element.tagClass = .contextSpecific ∧ p.element.constructed
  · rw [if_pos h]
    refine IdTag.ofNumber?_eq_some_iff.trans ⟨fun hid => ⟨⟨h.1, h.2, hrange hid⟩, hid⟩, And.right⟩
  · rw [if_neg h]
    constructor
    · intro hnone
      cases hnone
    · rintro ⟨⟨hclass, hbit, -⟩, -⟩
      exact absurd ⟨hclass, hbit⟩ h

theorem holdsId_iff {p : Spelling} :
    p.HoldsId ↔ ∃ id, idOfElement? p.element = some id := by
  constructor
  · intro h
    obtain ⟨id, hid⟩ := IdTag.exists_number_iff.mpr h.2.2
    exact ⟨id, idOfElement?_element_eq_some_iff.mpr ⟨h, hid⟩⟩
  · rintro ⟨id, hid⟩
    exact (idOfElement?_element_eq_some_iff.mp hid).1

theorem wraps_iff {p : Spelling} {bytes : Bytes} :
    p.Wraps bytes ↔ ∃ rest, readPart .octetString p.content = .ok (bytes, rest) := by
  simp only [readPart_eq_ok_iff]
  constructor
  · rintro ⟨value, more, hcontent, hvalue⟩
    exact ⟨more, value, hcontent.symm, hvalue⟩
  · rintro ⟨more, value, hcontent, hvalue⟩
    exact ⟨value, more, hcontent.symm, hvalue⟩

theorem wrapping_map_element {ps : List Spelling} :
    Wrapping (ps.map Spelling.element) ↔ ∀ p ∈ ps, p.HoldsId → ∃ bytes, p.Wraps bytes := by
  simp only [Wrapping, List.forall_mem_map, wraps_iff, holdsId_iff, forall_exists_index]
  rfl

theorem nodup_entries_map_element {ps : List Spelling}
    (h : Wrapping (ps.map Spelling.element)) :
    ((entries (ps.map Spelling.element)).map Prod.fst).Nodup ↔
      ps.Pairwise fun p q => p.HoldsId → q.HoldsId → p.tag ≠ q.tag := by
  rw [map_fst_entries h, List.Nodup, List.pairwise_filterMap, List.pairwise_map]
  refine iff_of_eq (congrArg (List.Pairwise · ps) ?_)
  funext p q
  refine propext ⟨fun hne hp hq heq => ?_, fun hne id hp id' hq heq => ?_⟩
  · obtain ⟨id, hid⟩ := holdsId_iff.mp hp
    have htag := (idOfElement?_element_eq_some_iff.mp hid).2
    exact hne id hid id (idOfElement?_element_eq_some_iff.mpr ⟨hq, heq.symm.trans htag⟩) rfl
  · obtain ⟨hp, htag⟩ := idOfElement?_element_eq_some_iff.mp hp
    obtain ⟨hq, htag'⟩ := idOfElement?_element_eq_some_iff.mp hq
    exact hne hp hq (by rw [htag, htag', heq])

theorem mem_entries_map_element {ps : List Spelling} {id : IdTag} {bytes : Bytes} :
    (id, bytes) ∈ entries (ps.map Spelling.element) ↔
      ∃ p ∈ ps, p.HoldsId ∧ p.tag = id.number ∧ p.Wraps bytes := by
  simp only [mem_entries, wraps_iff]
  constructor
  · rintro ⟨e, he, hid, hpart⟩
    obtain ⟨p, hp, rfl⟩ := List.mem_map.mp he
    obtain ⟨hholds, htag⟩ := idOfElement?_element_eq_some_iff.mp hid
    exact ⟨p, hp, hholds, htag, hpart⟩
  · rintro ⟨p, hp, hholds, htag, hpart⟩
    exact ⟨p.element, List.mem_map_of_mem hp,
      idOfElement?_element_eq_some_iff.mpr ⟨hholds, htag⟩, hpart⟩

/-- **Two lists are collected if they are spellings to their ends**, those of identifiers wrap some
bytes, and no two of these have one tag. -/
theorem collectLists_octets_iff {s s' : Bytes} {found : AttestedIds} :
    (∃ ids, collectList .empty s = .ok ids ∧ collectList ids s' = .ok found) ↔
      ∃ ps ps' : List Spelling, s = ps.flatMap Spelling.octets ∧
        s' = ps'.flatMap Spelling.octets ∧
        (∀ p ∈ ps ++ ps', p.HoldsId → ∃ bytes, p.Wraps bytes) ∧
        ((ps ++ ps').Pairwise fun p q => p.HoldsId → q.HoldsId → p.tag ≠ q.tag) ∧
        ∀ id bytes, found.get? id = some bytes ↔
          ∃ p ∈ ps ++ ps', p.HoldsId ∧ p.tag = id.number ∧ p.Wraps bytes := by
  rw [collectLists_eq_ok_iff]
  constructor
  · rintro ⟨_, _, hs, hs', hwrapping, hnodup, rfl⟩
    obtain ⟨ps, rfl, rfl⟩ := Element.scan_eq_iff.mp hs
    obtain ⟨ps', rfl, rfl⟩ := Element.scan_eq_iff.mp hs'
    rw [← List.map_append] at hwrapping hnodup ⊢
    refine ⟨ps, ps', rfl, rfl, wrapping_map_element.mp hwrapping,
      (nodup_entries_map_element hwrapping).mp hnodup, fun id bytes => ?_⟩
    rw [AttestedIds.get?_ofList hnodup, mem_entries_map_element]
  · rintro ⟨ps, ps', rfl, rfl, hwraps, hdistinct, hfound⟩
    have hwrapping := wrapping_map_element.mpr hwraps
    have hnodup := (nodup_entries_map_element hwrapping).mpr hdistinct
    refine ⟨_, _, Element.scan_eq_iff.mpr ⟨ps, rfl, rfl⟩,
      Element.scan_eq_iff.mpr ⟨ps', rfl, rfl⟩, ?_⟩
    rw [← List.map_append]
    refine ⟨hwrapping, hnodup, AttestedIds.ext_get fun id => Option.ext fun bytes => ?_⟩
    rw [AttestedIds.get?_ofList hnodup, mem_entries_map_element, hfound]

/-! ### Fields in order -/

/-- **The body of a key description is read as eight fields**, whatever follows them. -/
theorem parseBody_eq_ok_iff {s : Bytes} {d : KeyDescription} :
    parseBody s = .ok d ↔
      ∃ (f : Fields) (unread : Bytes), s = f.toList.flatMap Spelling.octets ++ unread ∧
        List.Forall₂ Spelling.Universal f.toList Fields.tags ∧
        (∀ p ∈ f.numbers, 1 ≤ p.content.length ∧ p.content.length ≤ 8) ∧ f.Say d ∧
        ∃ ids, collectList .empty f.softwareList.content = .ok ids ∧
          collectList ids f.hardwareList.content = .ok d.attestedIds := by
  unfold parseBody
  simp only [bind_eq_ok, Prod.exists, readNumber_eq_ok_iff, readPart_eq_ok_iff,
    Der.Integer.read?_eq_some_iff]
  constructor
  · rintro ⟨n₁, _, ⟨p₁, rfl, hu₁, hlen₁, hn₁⟩, n₂, _, ⟨p₂, rfl, hu₂, hlen₂, hn₂⟩,
      n₃, _, ⟨p₃, rfl, hu₃, hlen₃, hn₃⟩, n₄, _, ⟨p₄, rfl, hu₄, hlen₄, hn₄⟩,
      _, _, ⟨p₅, rfl, hu₅, rfl⟩, _, _, ⟨p₆, rfl, hu₆, rfl⟩, _, _, ⟨p₇, rfl, hu₇, rfl⟩,
      _, unread, ⟨p₈, rfl, hu₈, rfl⟩, ids, hids, found, hfound, hd⟩
    cases hd
    have hlevel {n : Int64} {s : Bytes} (hn : n.toInt = Der.Integer.signed s) :
        (SecurityLevel.ofInt64 n).HasNumber (Der.Integer.signed s) :=
      SecurityLevel.hasNumber_iff.mpr (by simp [hn])
    refine ⟨⟨p₁, p₂, p₃, p₄, p₅, p₆, p₇, p₈⟩, unread, ?_, ?_, ?_,
      ⟨hn₁, hlevel hn₂, hn₃, hlevel hn₄, rfl, rfl⟩, ids, hids, hfound⟩
    · simp [Fields.toList]
    · exact .cons hu₁ (.cons hu₂ (.cons hu₃ (.cons hu₄ (.cons hu₅ (.cons hu₆ (.cons hu₇
        (.cons hu₈ .nil)))))))
    · simp [Fields.numbers, hlen₁, hlen₂, hlen₃, hlen₄]
  · rintro ⟨f, unread, rfl, huniversal, hlengths, hsay, ids, hids, hfound⟩
    have hoctets : f.toList.flatMap Spelling.octets ++ unread =
        f.attestationVersion.octets ++ (f.attestationLevel.octets ++
          (f.keymasterVersion.octets ++ (f.keymasterLevel.octets ++ (f.challenge.octets ++
            (f.uniqueId.octets ++ (f.softwareList.octets ++ (f.hardwareList.octets ++
              unread))))))) := by
      simp [Fields.toList]
    simp only [Fields.toList, Fields.tags, List.forall₂_cons] at huniversal
    simp only [Fields.numbers, List.forall_mem_cons] at hlengths
    obtain ⟨hu₁, hu₂, hu₃, hu₄, hu₅, hu₆, hu₇, hu₈, -⟩ := huniversal
    obtain ⟨hlen₁, hlen₂, hlen₃, hlen₄, -⟩ := hlengths
    obtain ⟨hn₂, hlevel⟩ := SecurityLevel.hasNumber_iff.mp hsay.attestationLevel
    obtain ⟨hn₄, hlevel'⟩ := SecurityLevel.hasNumber_iff.mp hsay.keymasterLevel
    rw [hoctets]
    refine ⟨_, _, ⟨_, rfl, hu₁, hlen₁, hsay.attestationVersion⟩, _, _, ⟨_, rfl, hu₂, hlen₂, hn₂⟩,
      _, _, ⟨_, rfl, hu₃, hlen₃, hsay.keymasterVersion⟩, _, _, ⟨_, rfl, hu₄, hlen₄, hn₄⟩,
      _, _, ⟨_, rfl, hu₅, hsay.challenge.symm⟩, _, _, ⟨_, rfl, hu₆, hsay.uniqueId.symm⟩,
      _, _, ⟨_, rfl, hu₇, rfl⟩, _, _, ⟨_, rfl, hu₈, rfl⟩, ids, hids, _, hfound, ?_⟩
    rw [← hlevel, ← hlevel']

/-! ### Whole descriptions -/

theorem parse_eq_ok_iff {s : Bytes} {d : KeyDescription} :
    parse s = .ok d ↔
      ∃ p : Spelling, p.octets = s ∧ p.Universal 16 ∧ parseBody p.content = .ok d := by
  unfold parse
  simp only [bind_eq_ok, Prod.exists, readPart_eq_ok_iff]
  constructor
  · rintro ⟨_, rest, ⟨p, rfl, huniversal, rfl⟩, h⟩
    split at h
    · rename_i hnil
      exact ⟨p, by rw [hnil, List.append_nil], huniversal, h⟩
    · cases h
  · rintro ⟨p, rfl, huniversal, h⟩
    exact ⟨p.content, [], ⟨p, List.append_nil _, huniversal, rfl⟩, h⟩

/-- In the SEQUENCE that is written around a body, the body is parsed. -/
theorem parse_write_eq {body : Bytes} (h : body.length < 2 ^ 32) :
    parse (Element.write ⟨.universal, true, Der.sequenceNumber, body⟩) = parseBody body := by
  have hpart : readPart .description
      (Element.write ⟨.universal, true, Der.sequenceNumber, body⟩ ++ []) = .ok (body, []) :=
    readPart_write rfl rfl h []
  rw [List.append_nil] at hpart
  rw [parse, hpart]
  rfl

/-- A body that is read, in the SEQUENCE that is written around it, is parsed. -/
theorem parse_write {body : Bytes} {d : KeyDescription} (h : body.length < 2 ^ 32)
    (hbody : parseBody body = .ok d) :
    parse (Element.write ⟨.universal, true, Der.sequenceNumber, body⟩) = .ok d :=
  (parse_write_eq h).trans hbody

/-- An encoding whose body is not too long is parsed as the description in canonical form. -/
theorem parse_encode_canonical {d : KeyDescription} (h : d.body.length < 2 ^ 32) :
    parse d.encode = .ok d.canonical :=
  parse_write h (parseBody_body d h)

/-- What is parsed is what some layout describes, and the converse. -/
theorem parse_iff_describes {s : Bytes} {d : KeyDescription} :
    parse s = .ok d ↔ ∃ l : Layout, l.octets = s ∧ l.Describes d := by
  rw [parse_eq_ok_iff]
  constructor
  · rintro ⟨outer, rfl, houter, hbody⟩
    obtain ⟨f, unread, hcontent, huniversal, hlengths, hsay, hids⟩ := parseBody_eq_ok_iff.mp hbody
    obtain ⟨software, hardware, hsoftware, hhardware, hwraps, hdistinct, hfound⟩ :=
      collectLists_octets_iff.mp hids
    let l : Layout := {
      toFields := f
      outer, unread, software, hardware
      outer_universal := houter
      content_outer := hcontent
      universal := huniversal
      length_numbers := hlengths
      content_software := hsoftware
      content_hardware := hhardware
      wrapping := hwraps
      distinct := hdistinct }
    exact ⟨l, rfl, hsay, hfound⟩
  · rintro ⟨l, rfl, hsay, hfound⟩
    have hids := collectLists_octets_iff.mpr ⟨l.software, l.hardware, l.content_software,
      l.content_hardware, l.wrapping, l.distinct, hfound⟩
    exact ⟨l.outer, rfl, l.outer_universal, parseBody_eq_ok_iff.mpr
      ⟨l.toFields, l.unread, l.content_outer, l.universal, l.length_numbers, hsay, hids⟩⟩

/-- Fields whose numbers have one to eight octets say something, whatever identifiers go with it. -/
theorem Fields.exists_say {f : Fields}
    (h : ∀ p ∈ f.numbers, 1 ≤ p.content.length ∧ p.content.length ≤ 8) (ids : AttestedIds) :
    ∃ d, f.Say d ∧ d.attestedIds = ids := by
  have hnumber (p : Spelling) (hp : p ∈ f.numbers) :
      ∃ n : Int64, n.toInt = Der.Integer.signed p.content := by
    obtain ⟨hpos, hle⟩ := h p hp
    have hn : Der.Integer.read? p.content = some _ := if_neg (by omega)
    exact ⟨_, (Der.Integer.read?_eq_some_iff.mp hn).2⟩
  have hlevel (p : Spelling) (hp : p ∈ f.numbers) :
      ∃ level : SecurityLevel, level.HasNumber (Der.Integer.signed p.content) := by
    obtain ⟨n, hn⟩ := hnumber p hp
    exact ⟨.ofInt64 n, SecurityLevel.hasNumber_iff.mpr (by simp [hn])⟩
  obtain ⟨version, hversion⟩ := hnumber f.attestationVersion (by simp [numbers])
  obtain ⟨level, hlevel₁⟩ := hlevel f.attestationLevel (by simp [numbers])
  obtain ⟨version', hversion'⟩ := hnumber f.keymasterVersion (by simp [numbers])
  obtain ⟨level', hlevel₂⟩ := hlevel f.keymasterLevel (by simp [numbers])
  exact ⟨⟨version, level, version', level', f.challenge.content, f.uniqueId.content, ids⟩,
    ⟨hversion, hlevel₁, hversion', hlevel₂, rfl, rfl⟩, rfl⟩

namespace Layout

/-- Every layout describes something. -/
theorem exists_describes (l : Layout) : ∃ d, l.Describes d := by
  have hnodup : ((entries (l.listed.map Spelling.element)).map Prod.fst).Nodup :=
    (nodup_entries_map_element (wrapping_map_element.mpr l.wrapping)).mpr l.distinct
  obtain ⟨d, hsay, hids⟩ :=
    Fields.exists_say l.length_numbers (.ofList (entries (l.listed.map Spelling.element)))
  refine ⟨d, hsay, fun id bytes => ?_⟩
  rw [hids, AttestedIds.get?_ofList hnodup, mem_entries_map_element]
  rfl

/-- A layout is parsed as what it describes. -/
theorem parse_octets_iff {l : Layout} {d : KeyDescription} :
    parse l.octets = .ok d ↔ l.Describes d := by
  obtain ⟨d', hd'⟩ := l.exists_describes
  have hparse : parse l.octets = .ok d' := parse_iff_describes.mpr ⟨l, rfl, hd'⟩
  constructor
  · intro h
    obtain rfl := Except.ok.inj (hparse.symm.trans h)
    exact hd'
  · intro hd
    exact parse_iff_describes.mpr ⟨l, rfl, hd⟩

end Layout

/-- **A byte string is a key description exactly if it is laid out as one**, and then it is parsed
as what its layout describes. -/
theorem parse_eq_ok_iff_layout (s : Bytes) :
    ((∃ d, parse s = .ok d) ↔ ∃ l : Layout, l.octets = s) ∧
      ∀ l : Layout, l.octets = s → ∀ d, parse s = .ok d ↔ l.Describes d := by
  constructor
  · constructor
    · rintro ⟨d, h⟩
      obtain ⟨l, hl, -⟩ := parse_iff_describes.mp h
      exact ⟨l, hl⟩
    · rintro ⟨l, rfl⟩
      obtain ⟨d, hd⟩ := l.exists_describes
      exact ⟨d, Layout.parse_octets_iff.mpr hd⟩
  · rintro l rfl d
    exact Layout.parse_octets_iff

end KeyDescription

end DeviceAttest
