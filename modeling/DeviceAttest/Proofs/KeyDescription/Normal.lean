import DeviceAttest.Proofs.Der.Shortest
import DeviceAttest.Proofs.KeyDescription.Layout

/-!
# Writing what was parsed is a normal form

What is written for a description that was parsed takes no more octets than there were, part by
part: headers and integers are written the shortest, and what describes nothing is left out.  Only
the identifiers of both lists go into one, whose length may take one octet more than the lengths of
two (`length_lists_le`).  So the body grows by one octet at most (`length_body_le`), and the length
of the whole by one more.

The description is in canonical form, and if its octets were no more than 2^32, its body is still
below 2^32 octets.  So it is parsed again as it is (`parse_normalizes`).
-/

namespace DeviceAttest

open Der (Element Spelling)

namespace KeyDescription

/-! ### Identifiers -/

/-- The element of an identifier is no longer than the one that the identifier was found in. -/
theorem length_element_le {p : Spelling} {entry : IdTag × Bytes}
    (h : attested? p.element = some entry) :
    (AttestedIds.element entry).write.length ≤ p.octets.length := by
  obtain ⟨hid, hpart⟩ := attested?_eq_some_iff.mp h
  obtain ⟨-, htag⟩ := idOfElement?_element_eq_some_iff.mp hid
  obtain ⟨value, more, hcontent, huniversal, hvalue⟩ := wraps_iff.mpr hpart
  have hwrapped : (Der.octetString entry.2).write.length ≤ value.octets.length :=
    value.length_write_le huniversal.2.symm (Nat.le_of_eq (congrArg List.length hvalue.symm))
  refine p.length_write_le htag.symm (Nat.le_trans hwrapped ?_)
  rw [hcontent, List.length_append]
  exact Nat.le_add_right _ _

/-- The identifiers among some elements take no more octets than all of these. -/
theorem length_entries_le (ps : List Spelling) :
    (((entries (ps.map Spelling.element)).map AttestedIds.element).flatMap Element.write).length ≤
      (ps.flatMap Spelling.octets).length := by
  induction ps with
  | nil => exact Nat.le_refl _
  | cons p ps ih =>
    rw [List.flatMap_cons, List.length_append, List.map_cons, entries]
    cases h : attested? p.element with
    | none =>
      rw [List.filterMap_cons_none h]
      exact Nat.le_add_left_of_le ih
    | some entry =>
      rw [List.filterMap_cons_some h, List.map_cons, List.flatMap_cons, List.length_append]
      exact Nat.add_le_add (length_element_le h) ih

theorem length_write_sequence (es : List Element) :
    (Der.sequence es).write.length =
      1 + (Element.lengthOctets (es.flatMap Element.write).length).length +
        (es.flatMap Element.write).length :=
  Element.length_write (Der.sequence es)

namespace Layout

variable {l : Layout} {d : KeyDescription}

/-- The identifiers of a description are those that its elements attest, perhaps in another
order. -/
theorem Describes.perm_entries (h : l.Describes d) :
    d.attestedIds.toList.Perm (entries (l.listed.map Spelling.element)) := by
  have hnodup := (nodup_entries_map_element (wrapping_map_element.mpr l.wrapping)).mpr l.distinct
  refine AttestedIds.toList_perm hnodup fun id bytes => ?_
  rw [h.attestedIds, mem_entries_map_element]
  rfl

/-- The identifiers take no more octets than what the lists hold. -/
theorem Describes.length_elements_le (h : l.Describes d) :
    (d.attestedIds.elements.flatMap Element.write).length ≤
      l.softwareList.content.length + l.hardwareList.content.length := by
  have hperm := (h.perm_entries.map AttestedIds.element).flatMap_right Element.write
  rw [AttestedIds.elements, hperm.length_eq, l.content_software, l.content_hardware,
    ← List.length_append, ← List.flatMap_append]
  exact length_entries_le l.listed

/-! ### Parts -/

/-- Both lists are written with one octet more than before, at the most: the length of what one
list holds takes no more octets than the lengths of what two hold. -/
theorem Describes.length_lists_le (h : l.Describes d) :
    (Der.sequence []).write.length + (Der.sequence d.attestedIds.elements).write.length ≤
      l.softwareList.octets.length + l.hardwareList.octets.length + 1 := by
  have hheld := h.length_elements_le
  have hlength := Element.length_lengthOctets_mono hheld
  have hsum := Element.length_lengthOctets_add_le l.softwareList.content.length
    l.hardwareList.content.length
  have hsoftware := l.softwareList.length_lengthOctets_le
  have hhardware := l.hardwareList.length_lengthOctets_le
  have hempty : (Der.sequence []).write.length = 2 := by decide
  rw [hempty, length_write_sequence]
  omega

/-- The body takes one octet more than what it was parsed from, at the most. -/
theorem Describes.length_body_le (h : l.Describes d) :
    d.body.length ≤ l.outer.content.length + 1 := by
  have huniversal := l.universal
  simp only [Fields.toList, Fields.tags, List.forall₂_cons] at huniversal
  obtain ⟨hu₁, hu₂, hu₃, hu₄, hu₅, hu₆, -⟩ := huniversal
  have hnumber {p : Spelling} {n : Int64} (hn : n.toInt = Der.Integer.signed p.content)
      (hp : p ∈ l.toFields.numbers) : (Der.Integer.content n).length ≤ p.content.length :=
    Der.Integer.length_content_le hn (l.length_numbers p hp).1
  have hlevel {level : SecurityLevel} {n : Int} (hn : level.HasNumber n) :
      level.toInt64.toInt = n :=
    (SecurityLevel.hasNumber_iff.mp hn).1
  have h₁ : (Der.integer d.attestationVersion).write.length ≤ l.attestationVersion.octets.length :=
    Spelling.length_write_le hu₁.2.symm (hnumber h.attestationVersion (by simp [Fields.numbers]))
  have h₂ : (Der.enumerated d.attestationLevel.toInt64).write.length ≤
      l.attestationLevel.octets.length :=
    Spelling.length_write_le hu₂.2.symm
      (hnumber (hlevel h.attestationLevel) (by simp [Fields.numbers]))
  have h₃ : (Der.integer d.keymasterVersion).write.length ≤ l.keymasterVersion.octets.length :=
    Spelling.length_write_le hu₃.2.symm (hnumber h.keymasterVersion (by simp [Fields.numbers]))
  have h₄ : (Der.enumerated d.keymasterLevel.toInt64).write.length ≤
      l.keymasterLevel.octets.length :=
    Spelling.length_write_le hu₄.2.symm
      (hnumber (hlevel h.keymasterLevel) (by simp [Fields.numbers]))
  have h₅ : (Der.octetString d.challenge).write.length ≤ l.challenge.octets.length :=
    Spelling.length_write_le hu₅.2.symm (Nat.le_of_eq (congrArg List.length h.challenge))
  have h₆ : (Der.octetString d.uniqueId).write.length ≤ l.uniqueId.octets.length :=
    Spelling.length_write_le hu₆.2.symm (Nat.le_of_eq (congrArg List.length h.uniqueId))
  have hlists := h.length_lists_le
  rw [l.content_outer]
  simp only [body, elements, Fields.toList, List.flatMap_cons, List.flatMap_nil,
    List.length_append, List.length_nil]
  omega

/-- **What is written is two octets longer than what was parsed**, at the most. -/
theorem Describes.length_encode_le (h : l.Describes d) : d.encode.length ≤ l.octets.length + 2 := by
  have hbody := h.length_body_le
  have hlength := Element.length_lengthOctets_mono hbody
  have hsum := Element.length_lengthOctets_add_le l.outer.content.length 1
  have houter := l.outer.length_lengthOctets_le
  have hone : (Element.lengthOctets 1).length = 1 := by decide
  have hencode : d.encode.length =
      1 + (Element.lengthOctets d.body.length).length + d.body.length :=
    length_write_sequence d.elements
  have hoctets : l.octets.length = l.outer.octets.length := rfl
  omega

/-- What a layout describes is in canonical form. -/
theorem Describes.canonical_eq (h : l.Describes d) : d.canonical = d := by
  have hlevel {level : SecurityLevel} {n : Int} (hn : level.HasNumber n) :
      level.canonical = level := by
    rw [← SecurityLevel.ofInt64_toInt64, ← (SecurityLevel.hasNumber_iff.mp hn).2]
  rw [canonical, hlevel h.attestationLevel, hlevel h.keymasterLevel]

end Layout

/-! ### Parsing again -/

/-- **Writing what was parsed is a normal form.**  A level that was parsed is never unknown under
the number of a named one; what is written is at most two octets longer than what was parsed, and
is parsed as the same description.  So it is what is written for what is parsed from it: however
headers were spelled, whatever else the lists held, and whichever list the identifiers were in, one
round leads to what further rounds leave as it is. -/
theorem parse_normalizes {s : Bytes} {d : KeyDescription} (hlength : s.length ≤ 2 ^ 32)
    (h : parse s = .ok d) :
    (∀ level ∈ [d.attestationLevel, d.keymasterLevel], ∀ n ∈ [0, 1, 2], level ≠ .unknown n) ∧
      d.encode.length ≤ s.length + 2 ∧ parse d.encode = .ok d ∧
      (parse d.encode).map encode = .ok d.encode := by
  obtain ⟨l, rfl, hdescribes⟩ := parse_iff_describes.mp h
  have hcanonical := hdescribes.canonical_eq
  have hbody : d.body.length < 2 ^ 32 := by
    have hle := hdescribes.length_body_le
    have houter : l.outer.content.length + 2 ≤ l.octets.length := l.outer.length_octets
    omega
  have hparse : parse d.encode = .ok d := by
    rw [parse_encode_canonical hbody, hcanonical]
  refine ⟨?_, hdescribes.length_encode_le, hparse, ?_⟩
  · obtain ⟨hattestation, hkeymaster⟩ := (canonical_eq_self_iff d).mp hcanonical
    exact List.forall_mem_cons.mpr ⟨hattestation, List.forall_mem_singleton.mpr hkeymaster⟩
  · rw [hparse]
    rfl

/-- A description with two identifiers of sixty octets. -/
def evenIds : KeyDescription where
  attestationVersion := 3
  attestationLevel := .software
  keymasterVersion := 4
  keymasterLevel := .software
  challenge := List.replicate 103 7
  uniqueId := []
  attestedIds := (AttestedIds.empty.insert .brand (List.replicate 60 1)).insert .model
    (List.replicate 60 2)

/-- The same with one identifier in each list, the later one first.  What each list holds is below
128 octets, and what both hold is not; what all fields take is just below 256 octets. -/
def evenIdsApart : Bytes :=
  (Der.sequence (evenIds.elements.take 6 ++
    [Der.sequence [AttestedIds.element (.model, List.replicate 60 2)],
     Der.sequence [AttestedIds.element (.brand, List.replicate 60 1)]])).write

theorem parse_normalizes_apart :
    parse evenIdsApart = .ok evenIds ∧ parse evenIds.encode = .ok evenIds ∧
      evenIds.encode.length = evenIdsApart.length + 2 := by
  have hlength : evenIdsApart.length ≤ 2 ^ 32 := by decide +kernel
  have hparse : parse evenIdsApart = .ok evenIds := by decide +kernel
  exact ⟨hparse, (parse_normalizes hlength hparse).2.2.1, by decide +kernel⟩

end KeyDescription

end DeviceAttest
