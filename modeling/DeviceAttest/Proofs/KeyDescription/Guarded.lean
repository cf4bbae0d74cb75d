import DeviceAttest.Proofs.Der.Guarded
import DeviceAttest.Proofs.KeyDescription.Layout

/-!
# Key descriptions are read within range

`guardedParse` reads a key description as `parse` does, with elements read by index
(`Element.guardedRead`).  An authorization list is gone through in rounds of one element each
(`guardedRound`), and going through it is undefined if more rounds come to their end than it has
pairs of octets.

Nothing of this is ever undefined (`guardedParse_eq`), whatever the octets are: a round leaves a
list that is shorter by two octets at least (`length_of_round`).  `parse_in_range` has it all, and
that every byte string of a description is a contiguous part of what was parsed.
-/

namespace DeviceAttest.KeyDescription

open Der (Element Spelling)
open Guarded

/-! ### Reading by index -/

section

variable (limit : Nat)

/-- Reads one element of any kind. -/
def guardedElement (s : Bytes) : Guarded ParseError (Element × Bytes) :=
  (Element.guardedRead limit s).adapt .element

/-- Reads one universal element of a part's tag number and gives its content. -/
def guardedPart (part : Part) (s : Bytes) : Guarded ParseError (Bytes × Bytes) := do
  let (e, rest) ← guardedElement limit s
  if e.tagClass = .universal ∧ e.number = part.number then pure (e.content, rest)
  else throw (.expected part)

/-- The number that some octets spell.  The sign is taken from the first one. -/
def guardedSigned (part : Part) (value : Bytes) : Guarded ParseError Int64 :=
  if value.length = 0 ∨ 8 < value.length then throw (.unsupportedLength part)
  else do
    let first ← octetAt value 0
    pure (Der.Integer.accumulate (if first < 128 then 0 else -1) value)

/-- Reads one element that holds a number of at most 64 bits. -/
def guardedNumber (part : Part) (s : Bytes) : Guarded ParseError (Int64 × Bytes) := do
  let (content, rest) ← guardedPart limit part s
  let n ← guardedSigned part content
  pure (n, rest)

/-- One round through an authorization list: its first element is read, an identifier that it holds
is added, and the rest of the list is left. -/
def guardedRound (ids : AttestedIds) (list : Bytes) : Guarded ParseError (AttestedIds × Bytes) := do
  let (e, next) ← guardedElement limit list
  match idOfElement? e with
  | none    => pure (ids, next)
  | some id => do
    let (value, _) ← guardedPart limit .octetString e.content
    if (ids.get? id).isSome then throw (.repeatedId e.number)
    else pure (ids.insert id value, next)

/-- Goes through an authorization list, with a bound on the rounds that come to their end. -/
def guardedRounds : Nat → AttestedIds → Bytes → Guarded ParseError AttestedIds
  | 0,          ids, list =>
    if list = [] then pure ids
    else do
      let _ ← guardedRound limit ids list
      within False nofun
  | rounds + 1, ids, list =>
    if list = [] then pure ids
    else do
      let (ids, next) ← guardedRound limit ids list
      guardedRounds rounds ids next

/-- Adds the identifiers of an authorization list, in as many rounds as it has pairs of octets. -/
def guardedList (ids : AttestedIds) (list : Bytes) : Guarded ParseError AttestedIds :=
  guardedRounds limit (list.length / 2) ids list

/-- Reads the parts inside the outer SEQUENCE. -/
def guardedBody (s : Bytes) : Guarded ParseError KeyDescription := do
  let (attestationVersion, s) ← guardedNumber limit .integer s
  let (attestationLevel, s) ← guardedNumber limit .enumerated s
  let (keymasterVersion, s) ← guardedNumber limit .integer s
  let (keymasterLevel, s) ← guardedNumber limit .enumerated s
  let (challenge, s) ← guardedPart limit .octetString s
  let (uniqueId, s) ← guardedPart limit .octetString s
  let (softwareList, s) ← guardedPart limit .softwareList s
  let (hardwareList, _) ← guardedPart limit .hardwareList s
  let ids ← guardedList limit .empty softwareList
  let ids ← guardedList limit ids hardwareList
  pure {
    attestationVersion, keymasterVersion, challenge, uniqueId
    attestationLevel := .ofInt64 attestationLevel
    keymasterLevel := .ofInt64 keymasterLevel
    attestedIds := ids }

/-- Reads a key description that fills a byte string. -/
def guardedParse (s : Bytes) : Guarded ParseError KeyDescription := do
  let (body, rest) ← guardedPart limit .description s
  if rest = [] then guardedBody limit body else throw .trailingBytes

end

/-! ### Rounds -/

/-- One round through an authorization list. -/
def round (ids : AttestedIds) (list : Bytes) : Except ParseError (AttestedIds × Bytes) := do
  let (e, next) ← readElement list
  let ids ← collectIds ids [e]
  .ok (ids, next)

theorem collectList_nil (ids : AttestedIds) : collectList ids [] = .ok ids := by
  rw [collectList, Element.scan, if_pos rfl]
  rfl

/-- An authorization list is collected round by round. -/
theorem collectList_of_ne_nil {list : Bytes} (h : list ≠ []) (ids : AttestedIds) :
    collectList ids list = (do
      let (ids, next) ← round ids list
      collectList ids next) := by
  cases hread : Element.read list with
  | error cause =>
    have hscan : Element.scan list = ([], some cause) := by
      rw [Element.scan, if_neg h]
      split
      · next cause' h' => rw [Except.error.inj (h'.symm.trans hread)]
      · next h' => cases h'.symm.trans hread
    rw [collectList, hscan, round, readElement, hread]
    rfl
  | ok read =>
    obtain ⟨e, next⟩ := read
    rw [collectList, Element.scan_of_read hread, round, readElement, hread]
    have happend := collectIds_append ids [e] (Element.scan next).1
    rw [List.singleton_append] at happend
    simp only [happend, collectList, Except.mapError, bind, Except.bind]
    cases collectIds ids [e] <;> rfl

/-- A reading leaves less than was there, by two octets. -/
theorem length_of_readElement {s rest : Bytes} {e : Element} (h : readElement s = .ok (e, rest)) :
    e.content.length + rest.length + 2 ≤ s.length := by
  unfold readElement at h
  cases hread : Element.read s with
  | error cause => rw [hread] at h; cases h
  | ok read =>
    rw [hread] at h
    obtain rfl := Except.ok.inj h
    obtain ⟨header, rfl, hheader⟩ := Element.exists_header_of_read hread
    simp only [List.length_append]
    omega

/-- A round leaves a list that is shorter by two octets or more. -/
theorem length_of_round {ids ids' : AttestedIds} {list next : Bytes}
    (h : round ids list = .ok (ids', next)) : next.length + 2 ≤ list.length := by
  obtain ⟨⟨e, next'⟩, hread, h⟩ := bind_eq_ok.mp h
  obtain ⟨found, -, h⟩ := bind_eq_ok.mp h
  obtain ⟨-, rfl⟩ := Prod.mk.inj (Except.ok.inj h)
  have hlength := length_of_readElement hread
  omega

/-- A part that is read, and what it leaves, are not longer than what they are read from. -/
theorem length_of_readPart {part : Part} {s content rest : Bytes}
    (h : readPart part s = .ok (content, rest)) :
    content.length ≤ s.length ∧ rest.length ≤ s.length := by
  obtain ⟨p, rfl, -, rfl⟩ := readPart_eq_ok_iff.mp h
  have hlength := p.length_octets
  rw [List.length_append]
  omega

theorem length_of_readNumber {part : Part} {s rest : Bytes} {n : Int64}
    (h : readNumber part s = .ok (n, rest)) : rest.length ≤ s.length := by
  obtain ⟨p, rfl, -⟩ := readNumber_eq_ok_iff.mp h
  rw [List.length_append]
  omega

/-! ### No step leaves its range -/

section

variable {limit : Nat} (hlimit : 2 ^ 32 ≤ limit) {s : Bytes} (hs : 2 * s.length < limit)

include hlimit hs

theorem guardedElement_eq : guardedElement limit s = whole (readElement s) := by
  rw [guardedElement, Element.guardedRead_eq hlimit hs, readElement]
  cases Element.read s <;> rfl

theorem guardedPart_eq (part : Part) : guardedPart limit part s = whole (readPart part s) := by
  rw [guardedPart, guardedElement_eq hlimit hs]
  refine whole_bind fun ⟨e, rest⟩ _ => ?_
  dsimp only
  split <;> rfl

omit hlimit hs in
/-- The first octet is looked at only where there is one. -/
theorem guardedSigned_eq (part : Part) (value : Bytes) :
    guardedSigned part value =
      whole (match Der.Integer.read? value with
        | some n => .ok n
        | none   => .error (.unsupportedLength part)) := by
  by_cases h : value.length = 0 ∨ 8 < value.length
  · rw [guardedSigned, Der.Integer.read?, if_pos h, if_pos h]
    rfl
  · rw [guardedSigned, Der.Integer.read?, if_neg h, if_neg h, octetAt_bind (by omega)]
    cases value with
    | nil => exact absurd (.inl rfl) h
    | cons b value => rfl

theorem guardedNumber_eq (part : Part) :
    guardedNumber limit part s = whole (readNumber part s) := by
  rw [guardedNumber, guardedPart_eq hlimit hs]
  refine whole_bind fun ⟨content, rest⟩ _ => ?_
  simp only [guardedSigned_eq]
  cases Der.Integer.read? content <;> rfl

theorem guardedRound_eq (ids : AttestedIds) :
    guardedRound limit ids s = whole (round ids s) := by
  rw [guardedRound, guardedElement_eq hlimit hs]
  refine whole_bind fun ⟨e, next⟩ hread => ?_
  have hlength := length_of_readElement hread
  simp only [collectIds]
  cases idOfElement? e with
  | none => rfl
  | some id =>
    simp only [guardedPart_eq hlimit (s := e.content) (by omega) .octetString]
    cases readPart .octetString e.content with
    | error failure => rfl
    | ok part =>
      show (if (ids.get? id).isSome then _ else _) = _
      simp only [bind, Except.bind]
      split <;> rfl

omit hs in
/-- Half as many rounds as there are octets suffice: a round that is begun on what is left then
fails. -/
theorem guardedRounds_eq {rounds : Nat} {list : Bytes} (hlist : 2 * list.length < limit)
    (hrounds : list.length / 2 ≤ rounds) (ids : AttestedIds) :
    guardedRounds limit rounds ids list = whole (collectList ids list) := by
  induction rounds generalizing ids list with
  | zero =>
    unfold guardedRounds
    by_cases hnil : list = []
    · rw [if_pos hnil, hnil, collectList_nil]
      rfl
    · rw [if_neg hnil, guardedRound_eq hlimit hlist, collectList_of_ne_nil hnil]
      refine whole_bind fun ⟨ids', next⟩ hround => ?_
      have hlength := length_of_round hround
      omega
  | succ rounds ih =>
    unfold guardedRounds
    by_cases hnil : list = []
    · rw [if_pos hnil, hnil, collectList_nil]
      rfl
    · rw [if_neg hnil, guardedRound_eq hlimit hlist, collectList_of_ne_nil hnil]
      refine whole_bind fun ⟨ids', next⟩ hround => ?_
      have hlength := length_of_round hround
      exact ih (by omega) (by omega) ids'

theorem guardedList_eq (ids : AttestedIds) :
    guardedList limit ids s = whole (collectList ids s) :=
  guardedRounds_eq hlimit hs (Nat.le_refl _) ids

theorem guardedBody_eq : guardedBody limit s = whole (parseBody s) := by
  rw [guardedBody, guardedNumber_eq hlimit hs]
  refine whole_bind fun ⟨attestationVersion, s₁⟩ h₁ => ?_
  have hl₁ := length_of_readNumber h₁
  simp only [guardedNumber_eq hlimit (s := s₁) (by omega)]
  refine whole_bind fun ⟨attestationLevel, s₂⟩ h₂ => ?_
  have hl₂ := length_of_readNumber h₂
  simp only [guardedNumber_eq hlimit (s := s₂) (by omega)]
  refine whole_bind fun ⟨keymasterVersion, s₃⟩ h₃ => ?_
  have hl₃ := length_of_readNumber h₃
  simp only [guardedNumber_eq hlimit (s := s₃) (by omega)]
  refine whole_bind fun ⟨keymasterLevel, s₄⟩ h₄ => ?_
  have hl₄ := length_of_readNumber h₄
  simp only [guardedPart_eq hlimit (s := s₄) (by omega)]
  refine whole_bind fun ⟨challenge, s₅⟩ h₅ => ?_
  have hl₅ := length_of_readPart h₅
  simp only [guardedPart_eq hlimit (s := s₅) (by omega)]
  refine whole_bind fun ⟨uniqueId, s₆⟩ h₆ => ?_
  have hl₆ := length_of_readPart h₆
  simp only [guardedPart_eq hlimit (s := s₆) (by omega)]
  refine whole_bind fun ⟨softwareList, s₇⟩ h₇ => ?_
  have hl₇ := length_of_readPart h₇
  simp only [guardedPart_eq hlimit (s := s₇) (by omega)]
  refine whole_bind fun ⟨hardwareList, s₈⟩ h₈ => ?_
  have hl₈ := length_of_readPart h₈
  simp only [guardedList_eq hlimit (s := softwareList) (by omega)]
  refine whole_bind fun ids _ => ?_
  rw [guardedList_eq hlimit (s := hardwareList) (by omega)]
  exact whole_bind fun ids' _ => rfl

/-- **No step of a parse leaves its range.** -/
theorem guardedParse_eq : guardedParse limit s = whole (parse s) := by
  rw [guardedParse, guardedPart_eq hlimit hs]
  refine whole_bind fun ⟨body, rest⟩ h => ?_
  have hbody := (length_of_readPart h).1
  by_cases hrest : rest = []
  · simp only [if_pos hrest]
    exact guardedBody_eq hlimit (by omega)
  · simp only [if_neg hrest]
    rfl

end

/-! ### Descriptions are parts of what was parsed -/

theorem content_suffix_octets (p : Spelling) : p.content <:+ p.octets :=
  ⟨p.first :: (p.digits ++ p.size), by simp [Spelling.octets]⟩

theorem octets_infix_flatMap {p : Spelling} {ps : List Spelling} (h : p ∈ ps) :
    p.octets <:+: ps.flatMap Spelling.octets := by
  obtain ⟨before, after, rfl⟩ := List.append_of_mem h
  exact ⟨before.flatMap Spelling.octets, after.flatMap Spelling.octets, by simp⟩

namespace Layout

variable {l : Layout}

/-- The content of a field is a part of the layout. -/
theorem content_infix_octets {p : Spelling} (h : p ∈ l.toFields.toList) :
    p.content <:+: l.octets := by
  have houter : l.toFields.toList.flatMap Spelling.octets <:+: l.outer.content :=
    ⟨[], l.unread, by rw [l.content_outer, List.nil_append]⟩
  exact (content_suffix_octets p).isInfix.trans <| (octets_infix_flatMap h).trans <|
    houter.trans (content_suffix_octets l.outer).isInfix

/-- What is attested is a part of the layout. -/
theorem Attests.isInfix {id : IdTag} {bytes : Bytes} (h : l.Attests id bytes) :
    bytes <:+: l.octets := by
  obtain ⟨p, hp, -, -, value, more, hcontent, -, rfl⟩ := h
  have hwrapped : value.content <:+: p.content :=
    (content_suffix_octets value).isInfix.trans ⟨[], more, by rw [hcontent, List.nil_append]⟩
  have hlist : p.octets <:+: l.octets := by
    rcases List.mem_append.mp hp with hp | hp
    · refine (octets_infix_flatMap hp).trans ?_
      rw [← l.content_software]
      exact content_infix_octets (by simp [Fields.toList])
    · refine (octets_infix_flatMap hp).trans ?_
      rw [← l.content_hardware]
      exact content_infix_octets (by simp [Fields.toList])
  exact hwrapped.trans ((content_suffix_octets p).isInfix.trans hlist)

end Layout

/-- Every byte string of a description is a contiguous part of what was parsed. -/
theorem infix_of_parse {s : Bytes} {d : KeyDescription} (h : parse s = .ok d) :
    d.challenge <:+: s ∧ d.uniqueId <:+: s ∧
      ∀ id value, d.attestedIds.get? id = some value → value <:+: s := by
  obtain ⟨l, rfl, hd⟩ := parse_iff_describes.mp h
  refine ⟨?_, ?_, fun id value hvalue => ((hd.attestedIds id value).mp hvalue).isInfix⟩
  · rw [hd.challenge]
    exact Layout.content_infix_octets (by simp [Fields.toList])
  · rw [hd.uniqueId]
    exact Layout.content_infix_octets (by simp [Fields.toList])

/-! ### Hostile octets -/

/-- **Parsing is total and stays in range** on every byte string that a machine with words of 32
bits or more can hold.  No octet or slice past the end is taken, no difference of lengths is
negative, and no sum or accumulated length outgrows a word, in the readings of elements, numbers and
lists and so in the whole.  What is read of an element stands behind a header of two octets or more,
so a round through a list leaves two octets less, and half as many rounds as there are octets come
to their end at most.  Every byte string of a description is a contiguous part of the input. -/
theorem parse_in_range {width : Nat} (hwidth : 32 ≤ width) {s : Bytes}
    (hs : s.length < 2 ^ (width - 1)) :
    guardedParse (2 ^ width) s = whole (parse s) ∧
    Element.guardedRead (2 ^ width) s = whole (Element.read s) ∧
    (∀ part, ∃ r, guardedSigned part s = whole r) ∧
    (∀ e rest, Element.read s = .ok (e, rest) →
      ∃ header, s = header ++ e.content ++ rest ∧ 2 ≤ header.length) ∧
    (∀ ids ids' next, guardedRound (2 ^ width) ids s = whole (.ok (ids', next)) →
      next.length + 2 ≤ s.length) ∧
    (∀ ids, guardedRounds (2 ^ width) (s.length / 2) ids s = whole (collectList ids s)) ∧
    ∀ d, parse s = .ok d → d.challenge <:+: s ∧ d.uniqueId <:+: s ∧
      ∀ id value, d.attestedIds.get? id = some value → value <:+: s := by
  have hlimit : 2 ^ 32 ≤ 2 ^ width := Nat.pow_le_pow_right (by decide) hwidth
  have hwords : 2 * s.length < 2 ^ width := by
    have hhalf : 2 ^ (width - 1) * 2 = 2 ^ width := Nat.two_pow_pred_mul_two (by omega)
    omega
  refine ⟨guardedParse_eq hlimit hwords, Element.guardedRead_eq hlimit hwords,
    fun part => ⟨_, guardedSigned_eq part s⟩, fun e rest => Element.exists_header_of_read,
    fun ids ids' next h => ?_, guardedList_eq hlimit hwords, fun d => infix_of_parse⟩
  rw [guardedRound_eq hlimit hwords] at h
  exact length_of_round (Option.some.inj h)

/-- A length of four octets that claims all that it can. -/
theorem hostile_length_in_range :
    let s : Bytes := [0x30, 0x84, 0xff, 0xff, 0xff, 0xff, 5]
    32 ≤ 32 ∧ s.length < 2 ^ (32 - 1) ∧
      guardedParse (2 ^ 32) s = whole (.error (.element .truncatedContent)) := by
  intro s
  have hs : s.length < 2 ^ (32 - 1) := by decide
  refine ⟨Nat.le_refl _, hs, ?_⟩
  have h := parse_in_range (Nat.le_refl 32) hs
  rw [h.1]
  rfl

end DeviceAttest.KeyDescription
