import DeviceAttest.Proofs.KeyDescription.Layout
import Mathlib.Data.List.Pairwise

/-!
# Tag numbers of attested identifiers

An element has the number that its identifier octets spell modulo 2^32, for the reader of these
octets does not bound their count.  So an identifier is attested exactly if some element of the two
lists is numbered like it modulo 2^32, and every attested identifier has an element of its own
number exactly if the elements of identifiers spell numbers below 2^32 (`attested_modulo`).
-/

namespace DeviceAttest

open Der (Element Spelling)

namespace Der.Spelling

/-- A constructed element of the context class that spells the number of an identifier. -/
def SpellsId (p : Spelling) (id : IdTag) : Prop :=
  p.tagClass = .contextSpecific ∧ p.constructed ∧ p.number = id.number.toNat

theorem tag_eq_iff {p : Spelling} {n : UInt32} : p.tag = n ↔ p.number % 2 ^ 32 = n.toNat := by
  rw [← UInt32.toNat_inj, toNat_tag]

theorem SpellsId.tag_eq {p : Spelling} {id : IdTag} (h : p.SpellsId id) : p.tag = id.number := by
  obtain ⟨-, -, hnumber⟩ := h
  rw [tag_eq_iff, hnumber]
  exact Nat.mod_eq_of_lt id.number.toNat_lt

theorem SpellsId.holdsId {p : Spelling} {id : IdTag} (h : p.SpellsId id) : p.HoldsId :=
  ⟨h.1, h.2.1, IdTag.exists_number_iff.mp ⟨id, h.tag_eq⟩⟩

end Der.Spelling

namespace KeyDescription

namespace Layout

/-- The element of an identifier can be told by its tag. -/
theorem eq_of_tag_eq {l : Layout} {p q : Spelling} (hp : p ∈ l.listed) (hq : q ∈ l.listed)
    (hholds : p.HoldsId) (hholds' : q.HoldsId) (h : p.tag = q.tag) : p = q := by
  by_contra hne
  have : Std.Symm fun p q : Spelling => p.HoldsId → q.HoldsId → p.tag ≠ q.tag :=
    ⟨fun _ _ hdiffer hq hp heq => hdiffer hp hq heq.symm⟩
  exact l.distinct.forall hp hq hne hholds hholds' h

/-- An identifier is attested if some element that is to hold it has its tag. -/
theorem exists_attests_iff {l : Layout} {id : IdTag} :
    (∃ bytes, l.Attests id bytes) ↔ ∃ p ∈ l.listed, p.HoldsId ∧ p.tag = id.number := by
  constructor
  · rintro ⟨bytes, p, hp, hholds, htag, -⟩
    exact ⟨p, hp, hholds, htag⟩
  · rintro ⟨p, hp, hholds, htag⟩
    obtain ⟨bytes, hbytes⟩ := l.wrapping p hp hholds
    exact ⟨bytes, p, hp, hholds, htag, hbytes⟩

theorem Describes.isSome_get?_iff {l : Layout} {d : KeyDescription} (h : l.Describes d)
    {id : IdTag} :
    (d.attestedIds.get? id).isSome ↔ ∃ p ∈ l.listed, p.HoldsId ∧ p.tag = id.number := by
  rw [Option.isSome_iff_exists, ← exists_attests_iff]
  simp only [h.attestedIds]

/-- Every attested identifier is spelled by some element exactly if no element that is to hold one
spells a number of more than 32 bits. -/
theorem Describes.spelled_iff {l : Layout} {d : KeyDescription} (h : l.Describes d) :
    (∀ id, (d.attestedIds.get? id).isSome → ∃ p ∈ l.listed, p.SpellsId id) ↔
      ∀ p ∈ l.listed, p.HoldsId → p.number < 2 ^ 32 := by
  constructor
  · intro hspelled p hp hholds
    obtain ⟨id, hid⟩ := IdTag.exists_number_iff.mpr hholds.2.2
    obtain ⟨q, hq, hspells⟩ := hspelled id (h.isSome_get?_iff.mpr ⟨p, hp, hholds, hid⟩)
    -- the tag leaves one element only, so this one spells the number itself
    obtain rfl : p = q := eq_of_tag_eq hp hq hholds hspells.holdsId (hid.trans hspells.tag_eq.symm)
    rw [hspells.2.2]
    exact id.number.toNat_lt
  · intro hbound id hsome
    obtain ⟨p, hp, hholds, htag⟩ := h.isSome_get?_iff.mp hsome
    refine ⟨p, hp, hholds.1, hholds.2.1, ?_⟩
    rw [← Spelling.tag_eq_iff.mp htag, Nat.mod_eq_of_lt (hbound p hp hholds)]

end Layout

/-- **Tag numbers count modulo 2^32**, those of elements and those by which identifiers are
found. -/
theorem attested_modulo (s : Bytes) :
    (∀ e rest, Element.read s = .ok (e, rest) →
      (∃ p : Spelling, p.octets ++ rest = s) ∧
        ∀ p : Spelling, p.octets ++ rest = s → e.number.toNat = p.number % 2 ^ 32) ∧
    ∀ d, parse s = .ok d →
      (∃ l : Layout, l.octets = s) ∧
        ∀ l : Layout, l.octets = s →
          (∀ id, (d.attestedIds.get? id).isSome ↔
            ∃ p ∈ l.listed, p.tagClass = .contextSpecific ∧ p.constructed ∧
              p.number % 2 ^ 32 = id.number.toNat) ∧
          ((∀ id, (d.attestedIds.get? id).isSome → ∃ p ∈ l.listed, p.SpellsId id) ↔
            ∀ p ∈ l.listed, p.HoldsId → p.number < 2 ^ 32) := by
  constructor
  · intro e rest hread
    constructor
    · obtain ⟨p, hp, -⟩ := Element.read_eq_ok_iff.mp hread
      exact ⟨p, hp⟩
    · rintro p rfl
      rw [Element.read_octets] at hread
      obtain ⟨rfl, -⟩ := Prod.mk.inj (Except.ok.inj hread)
      exact p.toNat_tag
  · intro d hparse
    constructor
    · obtain ⟨l, hl, -⟩ := parse_iff_describes.mp hparse
      exact ⟨l, hl⟩
    · rintro l rfl
      have hdescribes := Layout.parse_octets_iff.mp hparse
      refine ⟨fun id => ?_, hdescribes.spelled_iff⟩
      rw [hdescribes.isSome_get?_iff]
      refine exists_congr fun p => and_congr_right fun _ => ?_
      rw [← Spelling.tag_eq_iff]
      constructor
      · rintro ⟨⟨hclass, hbit, -⟩, htag⟩
        exact ⟨hclass, hbit, htag⟩
      · rintro ⟨hclass, hbit, htag⟩
        exact ⟨⟨hclass, hbit, IdTag.exists_number_iff.mp ⟨id, htag⟩⟩, htag⟩

/-- A constructed element of the context class that spells 2^32 more than the number of the brand,
and begins with an OCTET STRING. -/
def foreign : Spelling where
  first := 0xbf
  digits := [0x90, 0x80, 0x80, 0x85, 0x46]
  number := 2 ^ 32 + 710
  size := [4]
  content := [4, 2, 0x68, 0x69]
  spells_number :=
    .high (by decide) <| .more (by decide) <| .more (by decide) <| .more (by decide) <|
      .more (by decide) <| .last (by decide)
  spells_length := .short (by decide)

theorem foreign_wraps : foreign.Wraps [0x68, 0x69] :=
  ⟨⟨0x04, [], 4, [2], [0x68, 0x69], .low (by decide), .short (by decide)⟩, [], rfl, ⟨rfl, rfl⟩, rfl⟩

/-- The fields of a key description with the foreign element in its last list. -/
def foreignFields : Fields where
  attestationVersion := ⟨0x02, [], 2, [1], [3], .low (by decide), .short (by decide)⟩
  attestationLevel := ⟨0x0a, [], 10, [1], [0], .low (by decide), .short (by decide)⟩
  keymasterVersion := ⟨0x02, [], 2, [1], [4], .low (by decide), .short (by decide)⟩
  keymasterLevel := ⟨0x0a, [], 10, [1], [0], .low (by decide), .short (by decide)⟩
  challenge := ⟨0x04, [], 4, [0], [], .low (by decide), .short (by decide)⟩
  uniqueId := ⟨0x04, [], 4, [0], [], .low (by decide), .short (by decide)⟩
  softwareList := ⟨0x30, [], 16, [0], [], .low (by decide), .short (by decide)⟩
  hardwareList := ⟨0x30, [], 16, [11], foreign.octets, .low (by decide), .short (by decide)⟩

/-- The layout of these fields. -/
def foreignLayout : Layout where
  toFields := foreignFields
  outer :=
    ⟨0x30, [], 16, [31], foreignFields.toList.flatMap Spelling.octets, .low (by decide),
      .short (by decide)⟩
  unread := []
  software := []
  hardware := [foreign]
  outer_universal := ⟨rfl, rfl⟩
  content_outer := rfl
  universal :=
    .cons ⟨rfl, rfl⟩ <| .cons ⟨rfl, rfl⟩ <| .cons ⟨rfl, rfl⟩ <| .cons ⟨rfl, rfl⟩ <|
      .cons ⟨rfl, rfl⟩ <| .cons ⟨rfl, rfl⟩ <| .cons ⟨rfl, rfl⟩ <| .cons ⟨rfl, rfl⟩ .nil
  length_numbers := by decide
  content_software := rfl
  content_hardware := rfl
  wrapping := by
    rintro p hp -
    obtain rfl := List.mem_singleton.mp hp
    exact ⟨_, foreign_wraps⟩
  distinct := List.pairwise_singleton _ _

/-- An element that spells a number of 33 bits is read, and taken for the brand. -/
theorem brand_under_foreign_number :
    Element.read foreign.octets =
        .ok (⟨.contextSpecific, true, IdTag.brand.number, foreign.content⟩, []) ∧
      foreign.number ≠ IdTag.brand.number.toNat ∧
      ∃ l : Layout, l.listed = [foreign] ∧ ∃ d, parse l.octets = .ok d ∧
        d.attestedIds = { AttestedIds.empty with brand := some [0x68, 0x69] } := by
  refine ⟨by decide +kernel, by decide, foreignLayout, rfl, ?_⟩
  exact ⟨⟨3, .software, 4, .software, [], [], _⟩, by decide +kernel, rfl⟩

end KeyDescription

end DeviceAttest
