import DeviceAttest.Proofs.Der.Distinguished
import DeviceAttest.Proofs.KeyDescription.TagNumber

/-!
# Where identifiers stand does not matter

Both authorization lists go into one map, and elements of no identifier are passed over.  So the
elements of identifiers decide what two lists come to, and of these neither the order nor the list
in which each stands: `idElements` are the ones among some elements, and what is collected is the
same for a permutation of them (`collectLists_perm`).

`encodeListing` writes any two lists of elements behind the fields that come first.  It is parsed
exactly if these fields are well-formed and the lists are collected (`parse_encodeListing_iff`), and
two such encodings with the elements of identifiers permuted are parsed alike (`parse_placement`).
-/

namespace DeviceAttest

open Der (Element Spelling)

/-- Entries under different tags make the same map in any order. -/
theorem AttestedIds.ofList_perm {entries entries' : List (IdTag × Bytes)}
    (h : entries.Perm entries') (hnodup : (entries.map Prod.fst).Nodup) :
    ofList entries = ofList entries' := by
  have hnodup' : (entries'.map Prod.fst).Nodup := (h.map Prod.fst).nodup_iff.mp hnodup
  refine ext_get fun id => Option.ext fun value => ?_
  rw [get?_ofList hnodup, get?_ofList hnodup', h.mem_iff]

instance : DecidablePred Spelling.HoldsId := fun p =>
  inferInstanceAs (Decidable
    (p.tagClass = .contextSpecific ∧ p.constructed ∧ 710 ≤ p.tag ∧ p.tag ≤ 717))

namespace KeyDescription

/-! ### Elements of identifiers -/

/-- The elements that are to hold identifiers among some, in order. -/
def idElements (ps : List Spelling) : List Element :=
  (ps.filter fun p => p.HoldsId).map Spelling.element

/-- Only elements of identifiers attest anything. -/
theorem entries_idElements (ps : List Spelling) :
    entries (idElements ps) = entries (ps.map Spelling.element) := by
  unfold entries idElements
  rw [List.filterMap_map, List.filterMap_map, List.filterMap_filter]
  refine List.filterMap_congr fun p _ => ?_
  by_cases hholds : p.HoldsId
  · simp [hholds]
  · have hnone : idOfElement? p.element = none :=
      Option.eq_none_iff_forall_ne_some.mpr fun id hid => hholds (holdsId_iff.mpr ⟨id, hid⟩)
    simp [hholds, attested?_eq_none hnone]

theorem wrapping_idElements (ps : List Spelling) :
    Wrapping (idElements ps) ↔ Wrapping (ps.map Spelling.element) := by
  constructor
  · intro h e he id hid
    obtain ⟨p, hp, rfl⟩ := List.mem_map.mp he
    have hholds : p.HoldsId := holdsId_iff.mpr ⟨id, hid⟩
    exact h p.element (List.mem_map_of_mem (List.mem_filter.mpr ⟨hp, by simpa⟩)) id hid
  · intro h e he
    obtain ⟨p, hp, rfl⟩ := List.mem_map.mp he
    exact h p.element (List.mem_map_of_mem (List.mem_filter.mp hp).1)

theorem nodup_number_idElements (ps : List Spelling) :
    ((idElements ps).map Element.number).Nodup ↔
      ps.Pairwise fun p q => p.HoldsId → q.HoldsId → p.tag ≠ q.tag := by
  rw [idElements, List.map_map, List.Nodup, List.pairwise_map, List.pairwise_filter]
  simp only [decide_eq_true_eq]
  rfl

/-- **Two lists are collected by their elements of identifiers**: each wraps an OCTET STRING and
none has the number of another. -/
theorem collectLists_idElements_iff {ps ps' : List Spelling} {found : AttestedIds} :
    (∃ ids, collectList .empty (ps.flatMap Spelling.octets) = .ok ids ∧
        collectList ids (ps'.flatMap Spelling.octets) = .ok found) ↔
      Wrapping (idElements (ps ++ ps')) ∧ ((idElements (ps ++ ps')).map Element.number).Nodup ∧
        AttestedIds.ofList (entries (idElements (ps ++ ps'))) = found := by
  have hscan (ps : List Spelling) :
      Element.scan (ps.flatMap Spelling.octets) = (ps.map Spelling.element, none) :=
    Element.scan_eq_iff.mpr ⟨ps, rfl, rfl⟩
  rw [collectLists_eq_ok_iff, wrapping_idElements, nodup_number_idElements, entries_idElements,
    List.map_append]
  constructor
  · rintro ⟨es, es', hes, hes', hwrapping, hnodup, hfound⟩
    obtain ⟨rfl, -⟩ := Prod.mk.inj ((hscan ps).symm.trans hes)
    obtain ⟨rfl, -⟩ := Prod.mk.inj ((hscan ps').symm.trans hes')
    rw [← List.map_append] at hwrapping hnodup
    exact ⟨by rwa [← List.map_append], (nodup_entries_map_element hwrapping).mp hnodup, hfound⟩
  · rintro ⟨hwrapping, hdistinct, hfound⟩
    refine ⟨_, _, hscan ps, hscan ps', hwrapping, ?_, hfound⟩
    rw [← List.map_append] at hwrapping ⊢
    exact (nodup_entries_map_element hwrapping).mpr hdistinct

/-- What is collected stays the same if the elements of identifiers are permuted. -/
theorem collectLists_perm {ps ps' qs qs' : List Spelling} {found : AttestedIds}
    (h : (idElements (ps ++ ps')).Perm (idElements (qs ++ qs')))
    (hcollected : ∃ ids, collectList .empty (ps.flatMap Spelling.octets) = .ok ids ∧
      collectList ids (ps'.flatMap Spelling.octets) = .ok found) :
    ∃ ids, collectList .empty (qs.flatMap Spelling.octets) = .ok ids ∧
      collectList ids (qs'.flatMap Spelling.octets) = .ok found := by
  obtain ⟨hwrapping, hdistinct, rfl⟩ := collectLists_idElements_iff.mp hcollected
  have hnodup : ((entries (idElements (ps ++ ps'))).map Prod.fst).Nodup := by
    rw [entries_idElements]
    exact (nodup_entries_map_element ((wrapping_idElements _).mp hwrapping)).mpr
      ((nodup_number_idElements _).mp hdistinct)
  have hfound : AttestedIds.ofList (entries (idElements (ps ++ ps'))) =
      .ofList (entries (idElements (qs ++ qs'))) :=
    AttestedIds.ofList_perm (h.filterMap _) hnodup
  exact collectLists_idElements_iff.mpr
    ⟨fun e he => hwrapping e (h.mem_iff.mpr he), (h.map _).nodup_iff.mp hdistinct, hfound.symm⟩

/-! ### Any lists behind the leading fields -/

namespace Fields

/-- The fields before the lists. -/
def leading (f : Fields) : List Spelling := f.toList.take 6

/-- The fields before the lists have the classes, tags and lengths that they are to have. -/
structure WellFormed (f : Fields) : Prop where
  universal : List.Forall₂ Spelling.Universal f.leading (tags.take 6)
  length_numbers : ∀ p ∈ f.numbers, 1 ≤ p.content.length ∧ p.content.length ≤ 8

/-- Fields can be told from the octets that begin with them. -/
theorem octets_append_inj {f g : Fields} {r r' : Bytes}
    (h : f.toList.flatMap Spelling.octets ++ r = g.toList.flatMap Spelling.octets ++ r') :
    f = g ∧ r = r' := by
  have hlength : f.toList.length = g.toList.length := rfl
  obtain ⟨hlist, rfl⟩ := Spelling.flatMap_octets_append_inj hlength h
  obtain ⟨p₁, p₂, p₃, p₄, p₅, p₆, p₇, p₈⟩ := f
  obtain ⟨q₁, q₂, q₃, q₄, q₅, q₆, q₇, q₈⟩ := g
  simp only [toList, List.cons.injEq, and_true] at hlist
  obtain ⟨rfl, rfl, rfl, rfl, rfl, rfl, rfl, rfl⟩ := hlist
  exact ⟨rfl, rfl⟩

end Fields

/-- The octets of six fields, or octets that cannot be read as six fields whatever follows them. -/
def IsLeading (lead : Bytes) : Prop :=
  (∃ f : Fields, lead = f.leading.flatMap Spelling.octets) ∨
    ∀ (f : Fields) (rest rest' : Bytes),
      lead ++ rest ≠ f.leading.flatMap Spelling.octets ++ rest'

/-- The octets of six fields that are as they are to be. -/
def WellFormedLeading (lead : Bytes) : Prop :=
  ∃ f : Fields, lead = f.leading.flatMap Spelling.octets ∧ f.WellFormed

/-- Elements in the SEQUENCE that is written around them. -/
def listElement (ps : List Spelling) : Element :=
  ⟨.universal, true, Der.sequenceNumber, ps.flatMap Spelling.octets⟩

section

variable (lead : Bytes) (software hardware : List Spelling)

/-- Leading fields and two lists, each in a SEQUENCE. -/
def bodyListing : Bytes := lead ++ ((listElement software).write ++ (listElement hardware).write)

/-- Leading fields and two lists in the outer SEQUENCE. -/
def encodeListing : Bytes :=
  Element.write ⟨.universal, true, Der.sequenceNumber, bodyListing lead software hardware⟩

end

/-- Fields with two lists behind them are parsed exactly if they are well-formed and the lists are
collected. -/
theorem parseBody_fields_iff {f : Fields} {software hardware : List Spelling} {d : KeyDescription}
    (h : (bodyListing (f.leading.flatMap Spelling.octets) software hardware).length < 2 ^ 32) :
    parseBody (bodyListing (f.leading.flatMap Spelling.octets) software hardware) = .ok d ↔
      f.WellFormed ∧ f.Say d ∧ ∃ ids,
        collectList .empty (software.flatMap Spelling.octets) = .ok ids ∧
          collectList ids (hardware.flatMap Spelling.octets) = .ok d.attestedIds := by
  have hcontent : (listElement software).content.length < 2 ^ 32 ∧
      (listElement hardware).content.length < 2 ^ 32 := by
    simp only [bodyListing, Element.write, List.length_append] at h
    omega
  obtain ⟨p, hp, hsoftware, -⟩ := Element.exists_octets_eq_write hcontent.1
  obtain ⟨q, hq, hhardware, -⟩ := Element.exists_octets_eq_write hcontent.2
  have hp₁ : p.Universal 16 :=
    ⟨congrArg Element.tagClass hsoftware, congrArg Element.number hsoftware⟩
  have hq₁ : q.Universal 16 :=
    ⟨congrArg Element.tagClass hhardware, congrArg Element.number hhardware⟩
  have hpc : p.content = software.flatMap Spelling.octets := congrArg Element.content hsoftware
  have hqc : q.content = hardware.flatMap Spelling.octets := congrArg Element.content hhardware
  -- the fields of `f`, with the two lists in place of its own
  let g : Fields := { f with softwareList := p, hardwareList := q }
  have hbody : bodyListing (f.leading.flatMap Spelling.octets) software hardware =
      g.toList.flatMap Spelling.octets ++ [] := by
    simp [bodyListing, Fields.leading, Fields.toList, g, hp, hq]
  have huniversal : List.Forall₂ Spelling.Universal g.toList Fields.tags ↔
      List.Forall₂ Spelling.Universal f.leading (Fields.tags.take 6) := by
    simp [Fields.toList, Fields.leading, Fields.tags, g, hp₁, hq₁]
  rw [parseBody_eq_ok_iff]
  constructor
  · rintro ⟨g', unread, hoctets, huniv, hlengths, hsay, hids⟩
    obtain ⟨rfl, -⟩ := Fields.octets_append_inj (hbody.symm.trans hoctets)
    rw [← hpc, ← hqc]
    exact ⟨⟨huniversal.mp huniv, hlengths⟩, ⟨hsay.1, hsay.2, hsay.3, hsay.4, hsay.5, hsay.6⟩, hids⟩
  · rintro ⟨⟨huniv, hlengths⟩, hsay, hids⟩
    rw [← hpc, ← hqc] at hids
    exact ⟨g, [], hbody, huniversal.mpr huniv, hlengths,
      ⟨hsay.1, hsay.2, hsay.3, hsay.4, hsay.5, hsay.6⟩, hids⟩

/-- What is parsed begins with six fields. -/
theorem exists_leading_of_parseBody {lead rest : Bytes} {d : KeyDescription}
    (h : parseBody (lead ++ rest) = .ok d) :
    ∃ (f : Fields) (rest' : Bytes), lead ++ rest = f.leading.flatMap Spelling.octets ++ rest' := by
  obtain ⟨f, unread, hoctets, -⟩ := parseBody_eq_ok_iff.mp h
  refine ⟨f, [f.softwareList, f.hardwareList].flatMap Spelling.octets ++ unread, ?_⟩
  rw [hoctets, ← List.append_assoc, ← List.flatMap_append]
  rfl

/-- **Two lists behind leading fields are parsed** exactly if the fields are well-formed and the
lists are collected. -/
theorem parse_encodeListing_iff {lead : Bytes} {software hardware : List Spelling}
    {d : KeyDescription} (hlead : IsLeading lead)
    (h : (bodyListing lead software hardware).length < 2 ^ 32) :
    parse (encodeListing lead software hardware) = .ok d ↔
      ∃ f : Fields, lead = f.leading.flatMap Spelling.octets ∧ f.WellFormed ∧ f.Say d ∧ ∃ ids,
        collectList .empty (software.flatMap Spelling.octets) = .ok ids ∧
          collectList ids (hardware.flatMap Spelling.octets) = .ok d.attestedIds := by
  rw [encodeListing, parse_write_eq h]
  constructor
  · intro hparse
    rcases hlead with ⟨f, rfl⟩ | hnone
    · exact ⟨f, rfl, (parseBody_fields_iff h).mp hparse⟩
    · obtain ⟨f, rest', heq⟩ := exists_leading_of_parseBody hparse
      exact absurd heq (hnone f _ rest')
  · rintro ⟨f, rfl, hparsed⟩
    exact (parseBody_fields_iff h).mpr hparsed

/-- Two lists behind leading fields fail to be parsed exactly if these are not well-formed, two
identifiers have one tag, or the element of an identifier wraps nothing. -/
theorem parse_encodeListing_error_iff {lead : Bytes} {software hardware : List Spelling}
    (hlead : IsLeading lead) (h : (bodyListing lead software hardware).length < 2 ^ 32) :
    (∃ e, parse (encodeListing lead software hardware) = .error e) ↔
      ¬ WellFormedLeading lead ∨
        (∃ tag, 1 < ((idElements (software ++ hardware)).map Element.number).count tag) ∨
        ∃ p ∈ software ++ hardware, p.HoldsId ∧ ¬ ∃ bytes, p.Wraps bytes := by
  have herror : (∃ e, parse (encodeListing lead software hardware) = .error e) ↔
      ¬ ∃ d, parse (encodeListing lead software hardware) = .ok d := by
    cases parse (encodeListing lead software hardware) <;> simp
  have hok : (∃ d, parse (encodeListing lead software hardware) = .ok d) ↔
      WellFormedLeading lead ∧
        ((idElements (software ++ hardware)).map Element.number).Nodup ∧
        ∀ p ∈ software ++ hardware, p.HoldsId → ∃ bytes, p.Wraps bytes := by
    simp only [parse_encodeListing_iff hlead h, collectLists_idElements_iff, wrapping_idElements,
      wrapping_map_element]
    constructor
    · rintro ⟨d, f, rfl, hwell, -, hwraps, hdistinct, -⟩
      exact ⟨⟨f, rfl, hwell⟩, hdistinct, hwraps⟩
    · rintro ⟨⟨f, rfl, hwell⟩, hdistinct, hwraps⟩
      obtain ⟨d, hsay, hids⟩ := Fields.exists_say hwell.length_numbers
        (.ofList (entries (idElements (software ++ hardware))))
      exact ⟨d, f, rfl, hwell, hsay, hwraps, hdistinct, hids.symm⟩
  rw [herror, hok, List.nodup_iff_count_le_one]
  simp only [not_and_or, not_forall, Nat.not_le, exists_prop]

/-- **Where identifiers stand does not matter.**  If the elements of identifiers in two lists are a
permutation of those in two others, both encodings are errors or both are parsed as the same. -/
theorem parse_placement (lead : Bytes) (hlead : IsLeading lead)
    (software hardware software' hardware' : List Spelling)
    (h : (bodyListing lead software hardware).length < 2 ^ 32)
    (h' : (bodyListing lead software' hardware').length < 2 ^ 32)
    (hperm : (idElements (software ++ hardware)).Perm (idElements (software' ++ hardware'))) :
    (((∃ e, parse (encodeListing lead software hardware) = .error e) ∧
        ∃ e, parse (encodeListing lead software' hardware') = .error e) ∨
      ∃ d, parse (encodeListing lead software hardware) = .ok d ∧
        parse (encodeListing lead software' hardware') = .ok d) ∧
    ((∃ e, parse (encodeListing lead software hardware) = .error e) ↔
      ¬ WellFormedLeading lead ∨
        (∃ tag, 1 < ((idElements (software ++ hardware)).map Element.number).count tag) ∨
        ∃ p ∈ software ++ hardware, p.HoldsId ∧ ¬ ∃ bytes, p.Wraps bytes) := by
  refine ⟨?_, parse_encodeListing_error_iff hlead h⟩
  have hsame (d : KeyDescription) : parse (encodeListing lead software hardware) = .ok d ↔
      parse (encodeListing lead software' hardware') = .ok d := by
    rw [parse_encodeListing_iff hlead h, parse_encodeListing_iff hlead h']
    exact exists_congr fun f => and_congr_right' (and_congr_right' (and_congr_right'
      ⟨collectLists_perm hperm, collectLists_perm hperm.symm⟩))
  cases hparse : parse (encodeListing lead software hardware) with
  | ok d => exact .inr ⟨d, rfl, (hsame d).mp hparse⟩
  | error e =>
    cases hparse' : parse (encodeListing lead software' hardware') with
    | ok d => cases hparse.symm.trans ((hsame d).mpr hparse')
    | error e' => exact .inl ⟨⟨e, rfl⟩, e', rfl⟩

/-- The element of a brand, with its number in the fewest digits. -/
def shortBrand : Spelling where
  first := 0xbf
  digits := [0x85, 0x46]
  number := 710
  size := [0x81, 4]
  content := foreign.content
  spells_number := .high (by decide) <| .more (by decide) <| .last (by decide)
  spells_length := .long (by decide) (by decide) (by decide)

/-- The element of a telephony identifier. -/
def shortImei : Spelling where
  first := 0xbf
  digits := [0x85, 0x4a]
  number := 714
  size := [0x81, 3]
  content := [4, 1, 0x39]
  spells_number := .high (by decide) <| .more (by decide) <| .last (by decide)
  spells_length := .long (by decide) (by decide) (by decide)

/-- An element with the number of a telephony identifier that is not constructed. -/
def bareImei : Spelling where
  first := 0x9f
  digits := [0x85, 0x4a]
  number := 714
  size := [2]
  content := [0xff, 0xff]
  spells_number := .high (by decide) <| .more (by decide) <| .last (by decide)
  spells_length := .short (by decide)

/-- The octets of fields that are as they are to be. -/
def plainLeading : Bytes := foreignFields.leading.flatMap Spelling.octets

theorem parse_placement_sample :
    IsLeading plainLeading ∧
      (bodyListing plainLeading [shortImei, bareImei] [shortBrand]).length < 2 ^ 32 ∧
      (bodyListing plainLeading [foreign] [bareImei, bareImei, shortImei]).length < 2 ^ 32 ∧
      (idElements ([shortImei, bareImei] ++ [shortBrand])).Perm
        (idElements ([foreign] ++ [bareImei, bareImei, shortImei])) ∧
      ∃ d, parse (encodeListing plainLeading [shortImei, bareImei] [shortBrand]) = .ok d ∧
        parse (encodeListing plainLeading [foreign] [bareImei, bareImei, shortImei]) = .ok d := by
  have hlead : IsLeading plainLeading := .inl ⟨foreignFields, rfl⟩
  have h : (bodyListing plainLeading [shortImei, bareImei] [shortBrand]).length < 2 ^ 32 := by
    decide +kernel
  have h' : (bodyListing plainLeading [foreign] [bareImei, bareImei, shortImei]).length <
      2 ^ 32 := by
    decide +kernel
  have hperm : (idElements ([shortImei, bareImei] ++ [shortBrand])).Perm
      (idElements ([foreign] ++ [bareImei, bareImei, shortImei])) := by
    decide +kernel
  have hparse : (parse (encodeListing plainLeading [shortImei, bareImei] [shortBrand])).isOk := by
    decide +kernel
  refine ⟨hlead, h, h', hperm, ?_⟩
  rcases (parse_placement plainLeading hlead _ _ _ _ h h' hperm).1 with ⟨⟨e, he⟩, -⟩ | hsame
  · rw [he] at hparse
    cases hparse
  · exact hsame

end KeyDescription

end DeviceAttest
