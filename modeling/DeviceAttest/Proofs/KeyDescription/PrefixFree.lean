import DeviceAttest.Proofs.KeyDescription.Layout

/-!
# Key descriptions are prefix-free

An element is read alike whatever follows it (`Element.read_append`), so it cannot be read off a
part of itself (`Element.read_prefix`).  The outer element of a key description leaves nothing:
whatever is added to a key description is trailing bytes (`parse_append`), and no part of one that
it begins with is one, too.
-/

namespace DeviceAttest

open Der (Element Spelling)

namespace Der.Element

/-- What follows an element is left, and does not count for the element. -/
theorem read_append {s rest : Bytes} {e : Element} (h : read s = .ok (e, rest)) (t : Bytes) :
    read (s ++ t) = .ok (e, rest ++ t) := by
  obtain ⟨p, rfl, rfl⟩ := read_eq_ok_iff.mp h
  rw [List.append_assoc]
  exact read_octets p (rest ++ t)

/-- An element cannot be read off a proper prefix of its octets. -/
theorem read_prefix {s t : Bytes} {e : Element} (h : read s = .ok (e, [])) (hinitial : t <+: s)
    (hne : t ≠ s) : ∃ failure, read t = .error failure := by
  cases hread : read t with
  | error failure => exact ⟨failure, rfl⟩
  | ok q =>
    obtain ⟨e', rest⟩ := q
    obtain ⟨more, rfl⟩ := hinitial
    -- the octets that are cut off would be left of the whole
    obtain ⟨-, hleft⟩ := Prod.mk.inj (Except.ok.inj (h.symm.trans (read_append hread more)))
    obtain ⟨-, rfl⟩ := List.append_eq_nil_iff.mp hleft.symm
    exact absurd (List.append_nil t).symm hne

end Der.Element

namespace KeyDescription

/-- What is added to a key description is trailing bytes. -/
theorem parse_append {s t : Bytes} {d : KeyDescription} (h : parse s = .ok d) (ht : t ≠ []) :
    parse (s ++ t) = .error .trailingBytes := by
  obtain ⟨p, rfl, huniversal, -⟩ := parse_eq_ok_iff.mp h
  have hpart : readPart .description (p.octets ++ t) = .ok (p.content, t) :=
    readPart_eq_ok_iff.mpr ⟨p, rfl, huniversal, rfl⟩
  rw [parse, hpart]
  exact if_neg ht

/-- No proper prefix of a key description is one. -/
theorem parse_prefix {s t : Bytes} {d : KeyDescription} (h : parse s = .ok d) (hinitial : t <+: s)
    (hne : t ≠ s) : ∃ e, parse t = .error e := by
  cases hparse : parse t with
  | error e => exact ⟨e, rfl⟩
  | ok d' =>
    obtain ⟨more, rfl⟩ := hinitial
    have hmore : more ≠ [] := by
      rintro rfl
      exact hne (List.append_nil t).symm
    cases h.symm.trans (parse_append hparse hmore)

/-- **Key descriptions are prefix-free.**  Cut off anywhere, or with anything added, a key
description is refused, in the second case for its trailing bytes.  An element is read as it is
whatever follows, which is left after what was left before, and not if it is cut off. -/
theorem parse_prefix_free :
    (∀ s d, parse s = .ok d →
      (∀ t, t <+: s → t ≠ s → ∃ e, parse t = .error e) ∧
        ∀ t, t ≠ [] → ∃ e, parse (s ++ t) = .error e ∧
          e.message = "trailing bytes after KeyDescription") ∧
      (∀ s e rest, Element.read s = .ok (e, rest) →
        ∀ t, Element.read (s ++ t) = .ok (e, rest ++ t)) ∧
      ∀ s e, Element.read s = .ok (e, []) →
        ∀ t, t <+: s → t ≠ s → ∃ failure, Element.read t = .error failure := by
  refine ⟨fun s d h => ⟨fun t hinitial hne => parse_prefix h hinitial hne, fun t ht => ?_⟩,
    fun s e rest h t => Element.read_append h t,
    fun s e h t hinitial hne => Element.read_prefix h hinitial hne⟩
  exact ⟨_, parse_append h ht, rfl⟩

end KeyDescription

end DeviceAttest
