import DeviceAttest.Key.Param
import Mathlib.Data.List.Basic

/-!
# Authorization sets under operations

A set is changed by adding a parameter at its end, or by replacing all of them.  After any
operations it holds what came since the last replacement, in order (`Operation.toList_run`), and its
readers, which scan the list by different rules, find what a list in which the first one wins has
(`FirstWins`): a look-up goes by tag, the challenge by tag and bytes, the identifiers by the kind of
parameter.  `operations_read` has both.
-/

namespace DeviceAttest

/-- The number of a tag is one of an identifier. -/
def Tag.Identifies (t : Tag) : Prop := 710 ≤ t.number ∧ t.number ≤ 717

instance : DecidablePred Tag.Identifies := fun _ => inferInstanceAs (Decidable (_ ∧ _))

theorem IdTag.identifies (id : IdTag) : id.tag.Identifies := by cases id <;> decide

namespace KeyParam

/-- The parameter that holds an identifier. -/
def ofEntry (entry : IdTag × Bytes) : KeyParam := attestationId entry.1 entry.2

/-- No other parameter has the tag of an identifier. -/
theorem tag_eq_idTag_iff {p : KeyParam} {id : IdTag} :
    p.tag = id.tag ↔ ∃ value, p = attestationId id value := by
  constructor
  · intro h
    cases p with
    | attestationId id' value =>
      have hnumber : id'.number = id.number := congrArg Tag.number h
      have hid := congrArg IdTag.ofNumber? hnumber
      rw [IdTag.ofNumber?_number, IdTag.ofNumber?_number] at hid
      exact ⟨value, congrArg (attestationId · value) (Option.some.inj hid)⟩
    | _ => cases id <;> cases h
  · rintro ⟨value, rfl⟩
    rfl

/-- Only a challenge has the tag of one. -/
theorem tag_eq_attestationChallenge_iff {p : KeyParam} :
    p.tag = .attestationChallenge ↔ ∃ challenge, p = attestationChallenge challenge := by
  constructor
  · intro h
    cases p with
    | attestationChallenge challenge => exact ⟨challenge, rfl⟩
    | attestationId id value => cases id <;> cases h
    | _ => cases h
  · rintro ⟨challenge, rfl⟩
    rfl

/-- Byte strings are held by challenges and identifiers, and by nothing else. -/
theorem bytes?_eq_some_iff {p : KeyParam} {value : Bytes} :
    p.bytes? = some value ↔
      p = attestationChallenge value ∨ ∃ id, p = attestationId id value := by
  cases p <;> simp [bytes?]

end KeyParam

namespace AuthorizationSet

/-! ### Operations -/

/-- What may be done to a set: a parameter is added, in place or to a set that is handed on, or all
parameters are replaced. -/
inductive Operation where
  | push (p : KeyParam)
  | handOn (p : KeyParam)
  | replace (params : List KeyParam)

namespace Operation

/-- The set after an operation. -/
def apply (s : AuthorizationSet) : Operation → AuthorizationSet
  | push p         => s.push p
  | handOn p       => s.push p
  | replace params => ofList params

/-- The set after some operations on an empty one. -/
def run (ops : List Operation) : AuthorizationSet := ops.foldl apply empty

/-- Whether an operation replaces all parameters. -/
def replaces : Operation → Bool
  | replace _ => true
  | _         => false

/-- The parameters that an operation brings. -/
def given : Operation → List KeyParam
  | push p         => [p]
  | handOn p       => [p]
  | replace params => params

/-- The operations from the last replacement on, or all if there is none. -/
def lastStretch : List Operation → List Operation
  | []          => []
  | op :: later => if later.any replaces then lastStretch later else op :: later

/-- An operation leaves what it brings behind what it keeps. -/
theorem toList_apply (s : AuthorizationSet) (op : Operation) :
    (apply s op).toList = (if op.replaces then [] else s.toList) ++ op.given := by
  cases op <;> rfl

/-- Where nothing is replaced, the stretch is everything. -/
theorem lastStretch_of_any_eq_false {ops : List Operation} (h : ops.any replaces = false) :
    lastStretch ops = ops := by
  cases ops with
  | nil => rfl
  | cons op later =>
    rw [List.any_cons, Bool.or_eq_false_iff] at h
    exact if_neg (ne_true_of_eq_false h.2)

theorem toList_foldl_apply (ops : List Operation) (s : AuthorizationSet) :
    (ops.foldl apply s).toList =
      (if ops.any replaces then [] else s.toList) ++ (lastStretch ops).flatMap given := by
  induction ops generalizing s with
  | nil => exact (List.append_nil _).symm
  | cons op later ih =>
    rw [List.foldl_cons, ih, List.any_cons, lastStretch]
    by_cases hlater : later.any replaces
    · rw [if_pos hlater, if_pos hlater, if_pos (Bool.or_eq_true_iff.mpr (.inr hlater))]
    · have hstretch := lastStretch_of_any_eq_false (Bool.eq_false_iff.mpr hlater)
      rw [if_neg hlater, if_neg hlater, hstretch, toList_apply, List.append_assoc,
        Bool.eq_false_iff.mpr hlater, Bool.or_false, List.flatMap_cons]

/-- **The set holds what came since the last replacement**, in order. -/
theorem toList_run (ops : List Operation) :
    (run ops).toList = (lastStretch ops).flatMap given := by
  rw [run, toList_foldl_apply]
  exact ite_self _ ▸ rfl

end Operation

/-! ### Readers -/

/-- A parameter is the earliest of its kind in a list. -/
def Earliest (kind : KeyParam → Prop) (params : List KeyParam) (p : KeyParam) : Prop :=
  ∃ before after, params = before ++ p :: after ∧ kind p ∧ ∀ q ∈ before, ¬ kind q

/-- The readers of a set find what a list of parameters has, the first of a kind where there are
several. -/
structure FirstWins (s : AuthorizationSet) (params : List KeyParam) : Prop where
  toList : s.toList = params
  size : s.size = params.length
  get? : ∀ t p, s.get? t = some p ↔ Earliest (fun q => q.tag = t) params p
  contains : ∀ t, s.contains t = true ↔ ∃ p ∈ params, p.tag = t
  challenge? : ∀ challenge, s.challenge? = some challenge ↔
    Earliest (fun q => ∃ bytes, q = .attestationChallenge bytes) params
      (.attestationChallenge challenge)
  /-- The identifiers are the parameters with the number of one, in order. -/
  attestedIds : s.attestedIds.map KeyParam.ofEntry =
    params.filter fun p => p.tag.Identifies
  /-- The first entry of an identifier is the one that a look-up finds. -/
  get?_idTag : ∀ id, (s.attestedIds.find? fun entry => entry.1 == id).map
    KeyParam.ofEntry = s.get? id.tag
  bytes? : ∀ p ∈ params, ∀ value, p.bytes? = some value ↔
    p = .attestationChallenge value ∨ ∃ id, p = .attestationId id value
  /-- What was found is found after any additions. -/
  keeps_get? : ∀ (added : List KeyParam) (t : Tag),
    s.get? t = none ∨ (added.foldl push s).get? t = s.get? t
  keeps_challenge? : ∀ added : List KeyParam, s.challenge? = none ∨
    (added.foldl push s).challenge? = s.challenge?
  /-- The identifiers of two lists one after the other are those of both. -/
  attestedIds_append : ∀ later : List KeyParam,
    (ofList (params ++ later)).attestedIds = s.attestedIds ++ (ofList later).attestedIds

section

variable (s : AuthorizationSet)

theorem get?_eq_some_iff_earliest {t : Tag} {p : KeyParam} :
    s.get? t = some p ↔ Earliest (fun q => q.tag = t) s.toList p := by
  rw [get?, List.find?_eq_some_iff_append]
  constructor
  · rintro ⟨htag, before, after, hparams, hbefore⟩
    exact ⟨before, after, hparams, beq_iff_eq.mp htag,
      fun q hq => by simpa using hbefore q hq⟩
  · rintro ⟨before, after, hparams, htag, hbefore⟩
    exact ⟨beq_iff_eq.mpr htag, before, after, hparams, fun q hq => by simpa using hbefore q hq⟩

theorem contains_iff {t : Tag} : s.contains t = true ↔ ∃ p ∈ s.toList, p.tag = t := by
  rw [contains, get?, List.find?_isSome]
  exact exists_congr fun p => and_congr_right fun _ => beq_iff_eq

theorem challenge?_eq_some_iff {challenge : Bytes} :
    s.challenge? = some challenge ↔
      s.get? .attestationChallenge = some (.attestationChallenge challenge) := by
  rw [challenge?, Option.bind_eq_some_iff]
  constructor
  · rintro ⟨p, hget, hbytes⟩
    obtain ⟨-, -, -, htag, -⟩ := s.get?_eq_some_iff_earliest.mp hget
    obtain ⟨bytes, rfl⟩ := KeyParam.tag_eq_attestationChallenge_iff.mp htag
    rw [hget, Option.some.inj hbytes]
  · intro hget
    exact ⟨_, hget, rfl⟩

theorem challenge?_eq_some_iff_earliest {challenge : Bytes} :
    s.challenge? = some challenge ↔
      Earliest (fun q => ∃ bytes, q = .attestationChallenge bytes) s.toList
        (.attestationChallenge challenge) := by
  rw [s.challenge?_eq_some_iff, s.get?_eq_some_iff_earliest, Earliest, Earliest]
  simp only [KeyParam.tag_eq_attestationChallenge_iff]

theorem map_attestedIds :
    s.attestedIds.map KeyParam.ofEntry =
      s.toList.filter fun p => p.tag.Identifies := by
  obtain ⟨params⟩ := s
  show (params.filterMap KeyParam.attestedId?).map _ = params.filter _
  induction params with
  | nil => rfl
  | cons p params ih =>
    cases p with
    | attestationId id value =>
      have hfilter : (KeyParam.attestationId id value :: params).filter
          (fun p => decide p.tag.Identifies) = .attestationId id value :: params.filter _ :=
        List.filter_cons_of_pos (decide_eq_true id.identifies)
      rw [hfilter, ← ih]
      rfl
    | _ => exact ih

theorem find?_attestedIds (id : IdTag) :
    (s.attestedIds.find? fun entry => entry.1 == id).map
      KeyParam.ofEntry = s.get? id.tag := by
  obtain ⟨params⟩ := s
  show ((params.filterMap KeyParam.attestedId?).find? _).map _ = params.find? _
  induction params with
  | nil => rfl
  | cons p params ih =>
    by_cases htag : p.tag = id.tag
    · obtain ⟨value, rfl⟩ := KeyParam.tag_eq_idTag_iff.mp htag
      have hfirst : ((id, value) :: params.filterMap KeyParam.attestedId?).find?
          (fun entry => entry.1 == id) = some (id, value) :=
        List.find?_cons_of_pos (beq_iff_eq.mpr rfl)
      have hget : (KeyParam.attestationId id value :: params).find? (fun p => p.tag == id.tag) =
          some (.attestationId id value) :=
        List.find?_cons_of_pos (beq_iff_eq.mpr htag)
      rw [hget]
      exact congrArg (Option.map KeyParam.ofEntry) hfirst
    · have hget : (p :: params).find? (fun p => p.tag == id.tag) =
          params.find? (fun p => p.tag == id.tag) :=
        List.find?_cons_of_neg (mt beq_iff_eq.mp htag)
      rw [hget, ← ih]
      cases p with
      | attestationId id' value =>
        have hne : id' ≠ id := fun heq => htag (congrArg IdTag.tag heq)
        have hlater : ((id', value) :: params.filterMap KeyParam.attestedId?).find?
            (fun entry => entry.1 == id) =
              (params.filterMap KeyParam.attestedId?).find? (fun entry => entry.1 == id) :=
          List.find?_cons_of_neg (mt beq_iff_eq.mp hne)
        exact congrArg (Option.map KeyParam.ofEntry) hlater
      | _ => rfl

theorem toList_foldl_push (added : List KeyParam) :
    (added.foldl push s).toList = s.toList ++ added := by
  induction added generalizing s with
  | nil => exact (List.append_nil _).symm
  | cons p added ih =>
    rw [List.foldl_cons, ih, toList_push, List.append_assoc, List.singleton_append]

/-- What a look-up finds stays what it finds when parameters are added. -/
theorem get?_foldl_push (added : List KeyParam) (t : Tag) :
    s.get? t = none ∨ (added.foldl push s).get? t = s.get? t := by
  have happend : (added.foldl push s).get? t = (s.get? t).or (added.find? fun p => p.tag == t) :=
    (congrArg (List.find? _) (s.toList_foldl_push added)).trans List.find?_append
  cases h : s.get? t with
  | none => exact .inl rfl
  | some p =>
    rw [h] at happend
    exact .inr happend

theorem challenge?_foldl_push (added : List KeyParam) :
    s.challenge? = none ∨ (added.foldl push s).challenge? = s.challenge? := by
  rcases s.get?_foldl_push added .attestationChallenge with hnone | hsame
  · exact .inl (congrArg (·.bind KeyParam.bytes?) hnone)
  · exact .inr (congrArg (·.bind KeyParam.bytes?) hsame)

/-- Of its own parameters, the first ones win in every set. -/
theorem firstWins : s.FirstWins s.toList where
  toList := rfl
  size := rfl
  get? _ _ := s.get?_eq_some_iff_earliest
  contains _ := s.contains_iff
  challenge? _ := s.challenge?_eq_some_iff_earliest
  attestedIds := s.map_attestedIds
  get?_idTag := s.find?_attestedIds
  bytes? _ _ _ := KeyParam.bytes?_eq_some_iff
  keeps_get? := s.get?_foldl_push
  keeps_challenge? := s.challenge?_foldl_push
  attestedIds_append _ := List.filterMap_append

end

/-- **After any operations the first parameter since the last replacement wins.** -/
theorem operations_read (ops : List Operation) :
    (Operation.run ops).FirstWins ((Operation.lastStretch ops).flatMap Operation.given) := by
  rw [← Operation.toList_run]
  exact firstWins _

/-- What came before a replacement is gone, and a second challenge is not found. -/
example :
    let s := Operation.run
      [.push (.keySize 1), .replace [.keySize 2], .handOn (.attestationChallenge [3]),
        .push (.attestationChallenge [4])]
    s.get? .keySize = some (.keySize 2) ∧ s.challenge? = some [3] := by decide

end AuthorizationSet

end DeviceAttest
