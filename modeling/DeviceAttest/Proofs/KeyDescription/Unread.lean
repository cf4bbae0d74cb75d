import DeviceAttest.Proofs.KeyDescription.Layout

/-!
# What is not read of a key description

Octets may follow the eighth field inside the outer SEQUENCE, and the OCTET STRING inside the
element of any identifier.  `encodeWith` writes a key description with such octets and lengths to
match.  It is parsed as the key description without them, whatever they are, as long as the body is
below 2^32 octets (`parse_encodeWith`).
-/

namespace DeviceAttest

open Der (Element Spelling)

/-- The element of an attested identifier, with octets after its OCTET STRING. -/
def AttestedIds.elementWith (inside : IdTag → Bytes) (entry : IdTag × Bytes) : Element :=
  { element entry with content := (Der.octetString entry.2).write ++ inside entry.1 }

namespace KeyDescription

/-! ### Writing what is not read -/

section

variable (d : KeyDescription) (inside : IdTag → Bytes) (after : Bytes)

/-- The eight elements of a key description, with octets inside those of the identifiers. -/
def elementsWith : List Element :=
  [Der.integer d.attestationVersion, Der.enumerated d.attestationLevel.toInt64,
   Der.integer d.keymasterVersion, Der.enumerated d.keymasterLevel.toInt64,
   Der.octetString d.challenge, Der.octetString d.uniqueId,
   Der.sequence [], Der.sequence (d.attestedIds.toList.map (AttestedIds.elementWith inside))]

/-- The octets inside the outer SEQUENCE, with some after the last list. -/
def bodyWith : Bytes := (d.elementsWith inside).flatMap Element.write ++ after

/-- The encoding of a key description, with octets inside the elements of the identifiers and after
the last list. -/
def encodeWith : Bytes :=
  Element.write ⟨.universal, true, Der.sequenceNumber, d.bodyWith inside after⟩

end

/-- Without such octets this is the encoding of the key description. -/
theorem encodeWith_nil (d : KeyDescription) : d.encodeWith (fun _ => []) [] = d.encode := by
  have helement : AttestedIds.elementWith (fun _ => []) = AttestedIds.element := by
    funext entry
    simp [AttestedIds.elementWith, AttestedIds.element]
  simp [encodeWith, bodyWith, elementsWith, encode, elements, Der.sequence, AttestedIds.elements,
    helement]

/-! ### Reading past it -/

theorem readPart_elementWith {inside : IdTag → Bytes} {entry : IdTag × Bytes}
    (h : entry.2.length < 2 ^ 32) :
    readPart .octetString (AttestedIds.elementWith inside entry).content =
      .ok (entry.2, inside entry.1) :=
  readPart_write rfl rfl h (inside entry.1)

/-- The identifiers of a list are collected, whatever follows their OCTET STRINGs. -/
theorem collectList_elementWith {ids : AttestedIds} {inside : IdTag → Bytes} {list : Bytes}
    (hlist : list = (ids.toList.map (AttestedIds.elementWith inside)).flatMap Element.write)
    (h : list.length < 2 ^ 32) : collectList .empty list = .ok ids := by
  have hcontent : ∀ e ∈ ids.toList.map (AttestedIds.elementWith inside),
      e.content.length < 2 ^ 32 := fun e he =>
    Nat.lt_of_le_of_lt (Element.length_content_le he) (hlist ▸ h)
  have hvalue : ∀ entry ∈ ids.toList, entry.2.length < 2 ^ 32 := by
    intro entry hentry
    have hlt := hcontent (AttestedIds.elementWith inside entry) (List.mem_map_of_mem hentry)
    simp only [AttestedIds.elementWith, Element.write, List.length_append] at hlt
    exact Nat.lt_of_le_of_lt (Nat.le_trans (Nat.le_add_left _ _) (Nat.le_add_right _ _)) hlt
  have hentry : ∀ entry ∈ ids.toList,
      attested? (AttestedIds.elementWith inside entry) = some entry := fun entry hentry =>
    attested?_eq_some_iff.mpr
      ⟨idOfElement?_element entry, _, readPart_elementWith (hvalue entry hentry)⟩
  have hentries : entries (ids.toList.map (AttestedIds.elementWith inside)) = ids.toList := by
    rw [entries, List.filterMap_map]
    exact (List.filterMap_congr hentry).trans List.filterMap_some
  have hwrapping : Wrapping (ids.toList.map (AttestedIds.elementWith inside)) := by
    rintro e he id -
    obtain ⟨entry, hentry, rfl⟩ := List.mem_map.mp he
    exact ⟨_, _, readPart_elementWith (hvalue entry hentry)⟩
  rw [hlist, collectList_eq_ok_iff]
  refine ⟨_, Element.scan_flatMap_write hcontent, collectIds_eq_ok_iff.mpr ⟨hwrapping, ?_⟩⟩
  rw [hentries]
  exact ⟨ids.nodup_toList, fun _ _ => AttestedIds.get?_empty _, ids.ofList_toList⟩

theorem canonical_hasNumber (level : SecurityLevel) :
    level.canonical.HasNumber (Der.Integer.signed (Der.Integer.content level.toInt64)) := by
  rw [← SecurityLevel.ofInt64_toInt64, SecurityLevel.hasNumber_iff, SecurityLevel.toInt64_ofInt64]
  exact ⟨(Der.Integer.content_signed _).2, rfl⟩

/-- The eight fields are read as those of the key description. -/
theorem parseBody_bodyWith {d : KeyDescription} {inside : IdTag → Bytes} {after : Bytes}
    (h : (d.bodyWith inside after).length < 2 ^ 32) :
    parseBody (d.bodyWith inside after) = .ok d.canonical := by
  have hcontent : ∀ e ∈ d.elementsWith inside, e.content.length < 2 ^ 32 := by
    intro e he
    have hle := Element.length_content_le he
    rw [bodyWith, List.length_append] at h
    omega
  have hlist : (Der.sequence (d.attestedIds.toList.map
      (AttestedIds.elementWith inside))).content.length < 2 ^ 32 :=
    hcontent _ (by simp [elementsWith])
  -- what is written is spelled, each element by one spelling
  obtain ⟨ps, hoctets, hes⟩ := Element.scan_eq_iff.mp (Element.scan_flatMap_write hcontent)
  have hbody : d.bodyWith inside after = ps.flatMap Spelling.octets ++ after := by
    rw [bodyWith, hoctets]
  simp only [elementsWith, List.map_eq_cons_iff, List.map_eq_nil_iff] at hes
  obtain ⟨p₁, _, rfl, he₁, p₂, _, rfl, he₂, p₃, _, rfl, he₃, p₄, _, rfl, he₄, p₅, _, rfl, he₅,
    p₆, _, rfl, he₆, p₇, _, rfl, he₇, p₈, _, rfl, he₈, rfl⟩ := hes
  have hc₁ : p₁.content = _ := congrArg Element.content he₁
  have hc₂ : p₂.content = _ := congrArg Element.content he₂
  have hc₃ : p₃.content = _ := congrArg Element.content he₃
  have hc₄ : p₄.content = _ := congrArg Element.content he₄
  have hc₇ : p₇.content = [] := congrArg Element.content he₇
  have hc₈ : p₈.content = _ := congrArg Element.content he₈
  have huniversal {p : Spelling} {e : Element} (he : p.element = e)
      (hclass : e.tagClass = .universal) : p.Universal e.number := by
    subst he
    exact ⟨hclass, rfl⟩
  have hlengths : ∀ p ∈ [p₁, p₂, p₃, p₄], 1 ≤ p.content.length ∧ p.content.length ≤ 8 := by
    simp only [List.forall_mem_cons, hc₁, hc₂, hc₃, hc₄]
    exact ⟨(Der.Integer.content_signed _).1, (Der.Integer.content_signed _).1,
      (Der.Integer.content_signed _).1, (Der.Integer.content_signed _).1, by simp⟩
  have hsay : (Fields.mk p₁ p₂ p₃ p₄ p₅ p₆ p₇ p₈).Say d.canonical := {
    attestationVersion := hc₁ ▸ (Der.Integer.content_signed _).2
    attestationLevel := hc₂ ▸ canonical_hasNumber _
    keymasterVersion := hc₃ ▸ (Der.Integer.content_signed _).2
    keymasterLevel := hc₄ ▸ canonical_hasNumber _
    challenge := (congrArg Element.content he₅).symm
    uniqueId := (congrArg Element.content he₆).symm }
  have hsoftware : collectList .empty p₇.content = .ok .empty := by
    rw [hc₇]
    exact @collectList_elements .empty (by decide)
  exact parseBody_eq_ok_iff.mpr ⟨⟨p₁, p₂, p₃, p₄, p₅, p₆, p₇, p₈⟩, after, hbody,
    .cons (huniversal he₁ rfl) (.cons (huniversal he₂ rfl) (.cons (huniversal he₃ rfl)
      (.cons (huniversal he₄ rfl) (.cons (huniversal he₅ rfl) (.cons (huniversal he₆ rfl)
        (.cons (huniversal he₇ rfl) (.cons (huniversal he₈ rfl) .nil))))))),
    hlengths, hsay, .empty, hsoftware, collectList_elementWith hc₈ (hc₈ ▸ hlist)⟩

/-- **Octets that are not read do not count**: after the last list or inside the element of an
identifier, whatever stands there is parsed over. -/
theorem parse_encodeWith (d : KeyDescription) (inside : IdTag → Bytes) (after : Bytes)
    (h : (d.bodyWith inside after).length < 2 ^ 32) :
    parse (d.encodeWith inside after) = .ok d.canonical :=
  parse_write h (parseBody_bodyWith h)

theorem parse_encodeWith_sample :
    (sample.bodyWith (fun _ => [5, 0]) [1]).length < 2 ^ 32 ∧
      parse (sample.encodeWith (fun _ => [5, 0]) [1]) = .ok sample.canonical := by
  have h : (sample.bodyWith (fun _ => [5, 0]) [1]).length < 2 ^ 32 := by decide +kernel
  exact ⟨h, parse_encodeWith sample (fun _ => [5, 0]) [1] h⟩

/-- A key description with a brand. -/
def branded : KeyDescription where
  attestationVersion := 3
  attestationLevel := .software
  keymasterVersion := 4
  keymasterLevel := .software
  challenge := []
  uniqueId := []
  attestedIds := AttestedIds.empty.insert .brand [0x68, 0x69]

/-- A null element after the last list, or after the OCTET STRING of the brand, is accepted. -/
theorem unread_null_accepted :
    branded.encodeWith (fun _ => []) [5, 0] =
        [0x30, 0x1e, 2, 1, 3, 10, 1, 0, 2, 1, 4, 10, 1, 0, 4, 0, 4, 0, 0x30, 0, 0x30, 8,
         0xbf, 0x85, 0x46, 4, 4, 2, 0x68, 0x69, 5, 0] ∧
      parse (branded.encodeWith (fun _ => []) [5, 0]) = .ok branded ∧
      branded.encodeWith (fun _ => [5, 0]) [] =
        [0x30, 0x1e, 2, 1, 3, 10, 1, 0, 2, 1, 4, 10, 1, 0, 4, 0, 4, 0, 0x30, 0, 0x30, 10,
         0xbf, 0x85, 0x46, 6, 4, 2, 0x68, 0x69, 5, 0] ∧
      parse (branded.encodeWith (fun _ => [5, 0]) []) = .ok branded := by
  decide +kernel

end KeyDescription

end DeviceAttest
