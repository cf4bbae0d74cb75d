import DeviceAttest.Proofs.KeyDescription.RoundTrip

/-!
# Collecting attested identifiers

`entries` lists what the elements of an authorization list attest, in order.  Collecting succeeds
exactly if every identifier's element begins with an OCTET STRING and no identifier is found twice,
and then gives the map of the entries (`collectIds_eq_ok_iff`).  Two lists are collected as one
(`collectLists_eq_ok_iff`).
-/

namespace DeviceAttest

open Der (Element)

/-- A sequence of two readings succeeds exactly if both do, one after the other. -/
theorem bind_eq_ok {ε α β : Type} {x : Except ε α} {f : α → Except ε β} {b : β} :
    (x >>= f) = .ok b ↔ ∃ a, x = .ok a ∧ f a = .ok b := by
  cases x <;> simp [bind, Except.bind]

/-- A map of entries without repetition holds these and nothing else. -/
theorem AttestedIds.get?_ofList {entries : List (IdTag × Bytes)}
    (h : (entries.map Prod.fst).Nodup) (id : IdTag) (value : Bytes) :
    (ofList entries).get? id = some value ↔ (id, value) ∈ entries := by
  rw [ofList, get?_foldl_insert h, get?_empty]
  simp

/-- The entries of a map are any entries without repetition that it holds, perhaps in another
order. -/
theorem AttestedIds.toList_perm {ids : AttestedIds} {entries : List (IdTag × Bytes)}
    (h : (entries.map Prod.fst).Nodup)
    (hget : ∀ id value, ids.get? id = some value ↔ (id, value) ∈ entries) :
    ids.toList.Perm entries := by
  refine (List.perm_ext_iff_of_nodup ids.nodup_toList.of_map h.of_map).mpr ?_
  rintro ⟨id, value⟩
  rw [mem_toList, hget]

/-- Some entries are free in a map with one more entry if they are free in the map and none has the
new one's tag. -/
theorem AttestedIds.free_insert_iff {ids : AttestedIds} {id : IdTag} {value : Bytes}
    {entries : List (IdTag × Bytes)} :
    (∀ entry ∈ entries, (ids.insert id value).get? entry.1 = none) ↔
      id ∉ entries.map Prod.fst ∧ ∀ entry ∈ entries, ids.get? entry.1 = none := by
  simp only [get?_insert, List.mem_map, not_exists, not_and]
  constructor
  · intro h
    refine ⟨fun entry hentry heq => ?_, fun entry hentry => ?_⟩
    · have hnone := h entry hentry
      rw [if_pos heq.symm] at hnone
      cases hnone
    · have hnone := h entry hentry
      split at hnone
      · cases hnone
      · exact hnone
  · rintro ⟨hne, h⟩ entry hentry
    rw [if_neg fun heq => hne entry hentry heq.symm]
    exact h entry hentry

namespace KeyDescription

/-- What an element attests: an identifier, and the OCTET STRING that its content begins with. -/
def attested? (e : Element) : Option (IdTag × Bytes) :=
  match idOfElement? e, readPart .octetString e.content with
  | some id, .ok (value, _) => some (id, value)
  | _, _                    => none

/-- What some elements attest, in order. -/
def entries (es : List Element) : List (IdTag × Bytes) := es.filterMap attested?

/-- Every element of an identifier begins with an OCTET STRING. -/
def Wrapping (es : List Element) : Prop :=
  ∀ e ∈ es, ∀ id, idOfElement? e = some id →
    ∃ value rest, readPart .octetString e.content = .ok (value, rest)

theorem attested?_eq_none {e : Element} (h : idOfElement? e = none) : attested? e = none := by
  rw [attested?, h]

theorem attested?_eq_some_iff {e : Element} {id : IdTag} {value : Bytes} :
    attested? e = some (id, value) ↔
      idOfElement? e = some id ∧ ∃ rest, readPart .octetString e.content = .ok (value, rest) := by
  unfold attested?
  cases idOfElement? e with
  | none => simp
  | some id' =>
    cases readPart .octetString e.content with
    | error failure => simp
    | ok part =>
      obtain ⟨value', rest⟩ := part
      simp

theorem mem_entries {es : List Element} {id : IdTag} {value : Bytes} :
    (id, value) ∈ entries es ↔
      ∃ e ∈ es, idOfElement? e = some id ∧
        ∃ rest, readPart .octetString e.content = .ok (value, rest) := by
  simp only [entries, List.mem_filterMap, attested?_eq_some_iff]

/-- Where every identifier's element begins with an OCTET STRING, all of them are entries. -/
theorem map_fst_entries {es : List Element} (h : Wrapping es) :
    (entries es).map Prod.fst = es.filterMap idOfElement? := by
  rw [entries, List.map_filterMap]
  refine List.filterMap_congr fun e he => ?_
  cases hid : idOfElement? e with
  | none => rw [attested?_eq_none hid]; rfl
  | some id =>
    obtain ⟨value, rest, hpart⟩ := h e he id hid
    rw [attested?_eq_some_iff.mpr ⟨hid, rest, hpart⟩]
    rfl

theorem wrapping_cons {e : Element} {es : List Element} :
    Wrapping (e :: es) ↔
      (∀ id, idOfElement? e = some id →
        ∃ value rest, readPart .octetString e.content = .ok (value, rest)) ∧ Wrapping es :=
  List.forall_mem_cons

/-- **Collecting succeeds exactly if every identifier is wrapped well and found once**, and gives
the map of what is found. -/
theorem collectIds_eq_ok_iff {ids found : AttestedIds} {es : List Element} :
    collectIds ids es = .ok found ↔
      Wrapping es ∧ ((entries es).map Prod.fst).Nodup ∧
        (∀ entry ∈ entries es, ids.get? entry.1 = none) ∧
        (entries es).foldl (fun ids (id, value) => ids.insert id value) ids = found := by
  induction es generalizing ids with
  | nil => simp [collectIds, Wrapping, entries]
  | cons e es ih =>
    rw [collectIds, wrapping_cons]
    cases hid : idOfElement? e with
    | none =>
      have hentries : entries (e :: es) = entries es :=
        List.filterMap_cons_none (attested?_eq_none hid)
      rw [hentries]
      simp only [ih, reduceCtorEq, false_implies, implies_true, true_and]
    | some id =>
      cases hpart : readPart .octetString e.content with
      | error failure => simp [bind, Except.bind]
      | ok part =>
        obtain ⟨value, rest⟩ := part
        have hentries : entries (e :: es) = (id, value) :: entries es :=
          List.filterMap_cons_some (attested?_eq_some_iff.mpr ⟨hid, rest, hpart⟩)
        rw [hentries]
        cases hheld : ids.get? id with
        | some old => simp [bind, Except.bind, hheld]
        | none =>
          -- the entries to come are free before the insertion and differ from it
          simp only [bind, Except.bind, hheld, Option.isSome_none, Bool.false_eq_true, if_false,
            ih, AttestedIds.free_insert_iff, List.map_cons, List.nodup_cons,
            List.forall_mem_cons, List.foldl_cons]
          constructor
          · rintro ⟨hwrapping, hnodup, ⟨hnot, hnew⟩, hfound⟩
            exact ⟨⟨fun _ _ => ⟨value, rest, rfl⟩, hwrapping⟩, ⟨hnot, hnodup⟩, ⟨trivial, hnew⟩,
              hfound⟩
          · rintro ⟨⟨-, hwrapping⟩, ⟨hnot, hnodup⟩, ⟨-, hnew⟩, hfound⟩
            exact ⟨hwrapping, hnodup, ⟨hnot, hnew⟩, hfound⟩

theorem collectIds_append (ids : AttestedIds) (es es' : List Element) :
    collectIds ids (es ++ es') = collectIds ids es >>= fun ids => collectIds ids es' := by
  induction es generalizing ids with
  | nil => rfl
  | cons e es ih =>
    rw [List.cons_append, collectIds, collectIds]
    cases idOfElement? e with
    | none => exact ih ids
    | some id =>
      cases readPart .octetString e.content with
      | error failure => rfl
      | ok part =>
        simp only [bind, Except.bind]
        split
        · rfl
        · exact ih _

/-- A list is collected if it is elements to its end, and they are. -/
theorem collectList_eq_ok_iff {ids found : AttestedIds} {s : Bytes} :
    collectList ids s = .ok found ↔
      ∃ es, Element.scan s = (es, none) ∧ collectIds ids es = .ok found := by
  unfold collectList
  obtain ⟨es, failure⟩ := Element.scan s
  cases failure with
  | some cause => simp [bind_eq_ok]
  | none => simp [bind_eq_ok]

/-- **Two lists are collected as one.** -/
theorem collectLists_eq_ok_iff {found : AttestedIds} {s s' : Bytes} :
    (∃ ids, collectList .empty s = .ok ids ∧ collectList ids s' = .ok found) ↔
      ∃ es es', Element.scan s = (es, none) ∧ Element.scan s' = (es', none) ∧
        Wrapping (es ++ es') ∧ ((entries (es ++ es')).map Prod.fst).Nodup ∧
        AttestedIds.ofList (entries (es ++ es')) = found := by
  have hwhole (es es' : List Element) :
      (∃ ids, collectIds .empty es = .ok ids ∧ collectIds ids es' = .ok found) ↔
        Wrapping (es ++ es') ∧ ((entries (es ++ es')).map Prod.fst).Nodup ∧
          AttestedIds.ofList (entries (es ++ es')) = found := by
    rw [← bind_eq_ok, ← collectIds_append, collectIds_eq_ok_iff]
    simp only [AttestedIds.get?_empty, implies_true, true_and]
    rfl
  simp only [collectList_eq_ok_iff]
  constructor
  · rintro ⟨ids, ⟨es, hes, hids⟩, es', hes', hfound⟩
    exact ⟨es, es', hes, hes', (hwhole es es').mp ⟨ids, hids, hfound⟩⟩
  · rintro ⟨es, es', hes, hes', hfound⟩
    obtain ⟨ids, hids, hfound⟩ := (hwhole es es').mpr hfound
    exact ⟨ids, ⟨es, hes, hids⟩, es', hes', hfound⟩

end KeyDescription

end DeviceAttest
