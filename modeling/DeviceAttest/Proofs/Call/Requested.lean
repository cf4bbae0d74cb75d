import DeviceAttest.Proofs.Call.Demand
import DeviceAttest.Proofs.Call.Noninterference
import DeviceAttest.Proofs.Call.Stages

/-!
# Requests are sets

A request is for the set of the identifiers that it was made of (`Request.IsFor`), and the set and
the challenge are all that it keeps (`Request.IsFor.eq`).  So the order of the codes that a call is
given and their repetitions do not count: codes with the same members are `Interchangeable`.

Under another number a call is the same up to the number, as long as its collaborators answer it
under the one alias as under the other (`Collaborators.Mirrors`).  Collaborators that act key by key
do so for any two keys that are held alike (`Conduct.mirrors_shared`).
-/

namespace DeviceAttest

open Program

/-! ### Identifiers in their order -/

/-- An identifier comes before another one in the order of all identifiers. -/
def IdentifierType.Before (a b : IdentifierType) : Prop := Named.all.idxOf a < Named.all.idxOf b

namespace Request

/-- A request is for a set of identifiers. -/
structure IsFor (r : Request) (asked : IdentifierType → Prop) (challenge : Bytes) : Prop where
  challenge : r.challenge = challenge
  mem : ∀ type, type ∈ r.identifierTypes ↔ asked type
  /-- Every identifier is listed once, and in its place. -/
  increasing : r.identifierTypes.Pairwise IdentifierType.Before
  telephony : r.requiresTelephony = true ↔ asked .imei ∨ asked .meid

theorem mem_identifierTypes {r : Request} {type : IdentifierType} :
    type ∈ r.identifierTypes ↔ r.contains type = true := by
  have hall : type ∈ [IdentifierType.serial, .imei, .meid] := by cases type <;> decide
  exact List.mem_filter.trans (and_iff_right hall)

theorem requiresTelephony_iff {r : Request} :
    r.requiresTelephony = true ↔ r.contains .imei = true ∨ r.contains .meid = true := by
  simp only [requiresTelephony, List.any_eq_true, mem_identifierTypes]
  constructor
  · rintro ⟨type, htype, hrequires⟩
    cases type with
    | serial => exact absurd hrequires Bool.false_ne_true
    | imei => exact .inl htype
    | meid => exact .inr htype
  · rintro (h | h)
    · exact ⟨.imei, h, rfl⟩
    · exact ⟨.meid, h, rfl⟩

theorem pairwise_identifierTypes (r : Request) :
    r.identifierTypes.Pairwise IdentifierType.Before := by
  have hall : [IdentifierType.serial, .imei, .meid].Pairwise IdentifierType.Before := by
    unfold IdentifierType.Before
    decide
  exact hall.filter _

/-- A request is for the identifiers that it contains. -/
theorem isFor_of_contains {r : Request} {asked : IdentifierType → Prop} {challenge : Bytes}
    (hchallenge : r.challenge = challenge) (h : ∀ type, r.contains type = true ↔ asked type) :
    r.IsFor asked challenge where
  challenge := hchallenge
  mem type := mem_identifierTypes.trans (h type)
  increasing := r.pairwise_identifierTypes
  telephony := by rw [requiresTelephony_iff, h, h]

/-- **The set and the challenge determine the request.** -/
theorem IsFor.eq {r r' : Request} {asked : IdentifierType → Prop} {challenge : Bytes}
    (h : r.IsFor asked challenge) (h' : r'.IsFor asked challenge) : r = r' := by
  have htypes : r.types = r'.types := IdentifierSet.ext_contains fun type => by
    have hiff := (mem_identifierTypes.symm.trans (h.mem type)).trans
      (mem_identifierTypes.symm.trans (h'.mem type)).symm
    exact Bool.eq_iff_iff.mpr hiff
  obtain ⟨types, _⟩ := r
  obtain ⟨types', _⟩ := r'
  obtain rfl : types = types' := htypes
  exact congrArg (Request.mk types) (h.challenge.trans h'.challenge.symm)

theorem isFor_ofTypes (types : List IdentifierType) (challenge : Bytes) :
    (ofTypes types challenge).IsFor (· ∈ types) challenge :=
  isFor_of_contains rfl fun type => IdentifierSet.contains_ofList types type

/-! ### Requests by codes -/

theorem known_iff_eq {code : Int32} : Known code ↔ code = 1 ∨ code = 2 ∨ code = 3 := by
  constructor
  · rintro ⟨type, rfl⟩
    cases type with
    | serial => exact .inl rfl
    | imei => exact .inr (.inl rfl)
    | meid => exact .inr (.inr rfl)
  · rintro (rfl | rfl | rfl)
    exacts [⟨.serial, rfl⟩, ⟨.imei, rfl⟩, ⟨.meid, rfl⟩]

theorem map_code_filterMap {codes : List Int32} (h : ∀ code ∈ codes, Known code) :
    (codes.filterMap IdentifierType.ofCode?).map IdentifierType.code = codes := by
  induction codes with
  | nil => rfl
  | cons code codes ih =>
    obtain ⟨⟨type, rfl⟩, hcodes⟩ := List.forall_mem_cons.mp h
    rw [List.filterMap_cons_some type.ofCode?_code, List.map_cons, ih hcodes]

theorem filterMap_map_code (types : List IdentifierType) :
    (types.map IdentifierType.code).filterMap IdentifierType.ofCode? = types := by
  have hback : IdentifierType.ofCode? ∘ IdentifierType.code = some :=
    funext IdentifierType.ofCode?_code
  rw [List.filterMap_map, hback, List.filterMap_some]

/-- Of some codes, either all are known or there is a first one that is not. -/
theorem forall_known_or_exists (codes : List Int32) :
    (∀ code ∈ codes, Known code) ∨
      ∃ before code after, codes = before ++ code :: after ∧ (∀ c ∈ before, Known c) ∧
        ¬ Known code := by
  induction codes with
  | nil => exact .inl fun _ h => absurd h List.not_mem_nil
  | cons code codes ih =>
    by_cases hcode : Known code
    · rcases ih with known | ⟨before, code', after, rfl, known, unknown⟩
      · exact .inl (List.forall_mem_cons.mpr ⟨hcode, known⟩)
      · exact .inr ⟨code :: before, code', after, rfl, List.forall_mem_cons.mpr ⟨hcode, known⟩,
          unknown⟩
    · exact .inr ⟨[], code, codes, rfl, fun _ h => absurd h List.not_mem_nil, hcode⟩

/-- **Codes give a request** exactly if they are those of some identifiers, and then the one for
these. -/
theorem ofCodes_eq_ok_iff {codes : List Int32} {challenge : Bytes} {r : Request} :
    ofCodes codes challenge = .ok r ↔
      ∃ types : List IdentifierType, codes = types.map IdentifierType.code ∧
        r = ofTypes types challenge := by
  constructor
  · intro h
    rcases forall_known_or_exists codes with known | ⟨before, code, after, rfl, known, unknown⟩
    · rw [ofCodes_of_known challenge known] at h
      exact ⟨_, (map_code_filterMap known).symm, (Except.ok.inj h).symm⟩
    · cases (ofCodes_of_unknown challenge known unknown).symm.trans h
  · rintro ⟨types, rfl, rfl⟩
    have known : ∀ code ∈ types.map IdentifierType.code, Known code :=
      List.forall_mem_map.mpr fun type _ => ⟨type, rfl⟩
    rw [ofCodes_of_known challenge known, filterMap_map_code]

/-- **Codes give no request** exactly if one is not known, and then the first such is told. -/
theorem ofCodes_eq_error_iff {codes : List Int32} {challenge : Bytes} {code : Int32} :
    ofCodes codes challenge = .error code ↔
      ∃ before after, codes = before ++ code :: after ∧ (∀ c ∈ before, Known c) ∧
        ¬ Known code := by
  constructor
  · intro h
    rcases forall_known_or_exists codes with known | ⟨before, code', after, rfl, known, unknown⟩
    · cases (ofCodes_of_known challenge known).symm.trans h
    · obtain rfl := Except.error.inj ((ofCodes_of_unknown challenge known unknown).symm.trans h)
      exact ⟨before, after, rfl, known, unknown⟩
  · rintro ⟨before, after, rfl, known, unknown⟩
    exact ofCodes_of_unknown challenge known unknown

theorem exists_ofCodes_iff {codes : List Int32} {challenge : Bytes} :
    (∃ r, ofCodes codes challenge = .ok r) ↔ ∀ code ∈ codes, Known code := by
  constructor
  · rintro ⟨r, h⟩
    obtain ⟨types, rfl, -⟩ := ofCodes_eq_ok_iff.mp h
    exact List.forall_mem_map.mpr fun type _ => ⟨type, rfl⟩
  · intro known
    exact ⟨_, ofCodes_of_known challenge known⟩

theorem isFor_of_ofCodes {codes : List Int32} {challenge : Bytes} {r : Request}
    (h : ofCodes codes challenge = .ok r) : r.IsFor (fun type => type.code ∈ codes) challenge := by
  obtain ⟨types, rfl, rfl⟩ := ofCodes_eq_ok_iff.mp h
  refine isFor_of_contains rfl fun type => (IdentifierSet.contains_ofList types type).trans ?_
  have hinjective : Function.Injective IdentifierType.code := fun a b hab =>
    Option.some.inj (by rw [← a.ofCode?_code, hab, b.ofCode?_code])
  exact (List.mem_map_of_injective hinjective).symm

/-- Known codes with the same members give the same request. -/
theorem ofCodes_congr {codes codes' : List Int32} (h : ∀ code, code ∈ codes ↔ code ∈ codes')
    {challenge : Bytes} {r : Request} (hr : ofCodes codes challenge = .ok r) :
    ofCodes codes' challenge = .ok r := by
  have known := exists_ofCodes_iff.mp ⟨r, hr⟩
  obtain ⟨r', hr'⟩ := exists_ofCodes_iff.mpr fun code hcode => known code ((h code).mpr hcode)
  have hsame : (fun type : IdentifierType => type.code ∈ codes) = fun type => type.code ∈ codes' :=
    funext fun type => propext (h type.code)
  rw [hr', (isFor_of_ofCodes hr').eq (hsame ▸ isFor_of_ofCodes hr)]

end Request

/-! ### Calls by codes -/

theorem attestCodes_of_ofCodes {process : ProcessLabel} {settings : AttestationSettings}
    {codes : List Int32} {challenge : Bytes} {r : Request}
    (h : Request.ofCodes codes challenge = .ok r) :
    attestCodes process settings codes challenge = attest process settings r := by
  rw [attestCodes, h]

theorem attestCodes_of_error {process : ProcessLabel} {settings : AttestationSettings}
    {codes : List Int32} {challenge : Bytes} {code : Int32}
    (h : Request.ofCodes codes challenge = .error code) :
    attestCodes process settings codes challenge =
      Attempt.fail (.invalidArgument (.unknownIdentifier code)) := by
  rw [attestCodes, h]

/-! ### Collaborators that answer under another alias -/

theorem Step.key?_rename (a b : KeyAlias) (step : Step) :
    (step.rename a b).key? = step.key?.map (a.renameKey b) := by
  cases step with
  | drew number => rfl
  | event e => rfl
  | call q reply => cases q <;> rfl

/-- Whatever is answered by some collaborators under one alias is answered by others, renamed, under
another alias. -/
def Collaborators.Mirrors {σ σ' : Type} (c : Collaborators σ) (s : σ) (a : KeyAlias)
    (c' : Collaborators σ') (s' : σ') (b : KeyAlias) : Prop :=
  ∀ steps, (∀ step ∈ steps, ∀ key, step.key? = some key → key = a.text) → c.Answers s steps →
    c'.Answers s' (steps.map (Step.rename a b))

/-- Collaborators that act key by key tell no keys apart that are held alike. -/
theorem Conduct.mirrors_shared {ρ : Type} (c : Conduct ρ) {store : String → Bool} {m : ρ}
    {a b : KeyAlias} (h : store a.text = store b.text) :
    c.shared.Mirrors (store, m) a c.shared (store, m) b := by
  intro steps hkeys hanswers
  have hrenamed : ∀ step ∈ steps.map (Step.rename a b), ∀ key, step.key? = some key →
      key = b.text := by
    intro step hstep key hkey
    obtain ⟨before, hbefore, rfl⟩ := List.mem_map.mp hstep
    rw [Step.key?_rename, Option.map_eq_some_iff] at hkey
    obtain ⟨named, hnamed, rfl⟩ := hkey
    rw [hkeys before hbefore named hnamed, KeyAlias.renameKey_text]
  rw [c.shared_answers hrenamed, c.own_answers_rename, ← h]
  exact (c.shared_answers hkeys store m).mp hanswers

/-- No failure of the source names a key. -/
theorem Exchange.renameResult_failure {x : Exchange} (hx : x.1.ofSource) {failure : Failure}
    (h : x.failure? = some failure) (a b : KeyAlias) :
    renameResult a b (.error failure) = .error failure := by
  obtain ⟨q, reply⟩ := x
  cases q with
  | telephony => rcases reply with f | _ | _ <;> cases h <;> rfl
  | serial => rcases reply with f | e | text <;> cases h <;> rfl
  | imei | meid => rcases reply with f | e | _ | text <;> cases h <;> rfl
  | buildProperties => rcases reply with f | build <;> cases h; rfl
  | deleteKey | generateKey | attestKey | decode => exact absurd hx Bool.false_ne_true

/-- A path that draws no number has nothing to rename. -/
theorem path_rename_quiet {process : ProcessLabel} {settings : AttestationSettings}
    {request : Request} {steps : List Step} {r : Except Failure Chain}
    (h : Path (attest process settings request).run steps r) (hnil : Step.numbers steps = [])
    (a b : KeyAlias) : steps.map (Step.rename a b) = steps ∧ renameResult a b r = r := by
  rcases path_attest.mp h with ⟨f, hc, rfl⟩ | ⟨params, early, number, course, -, rfl, -⟩
  · have hsource := Attest.always_collectParams _ _ _ _ hc
    obtain ⟨before, x, hsplit, -, hx⟩ := Attest.decided_collectParams _ _ _ _ hc
    have hmem : x ∈ Step.exchanges steps := hsplit ▸ List.mem_concat_self
    exact ⟨map_rename_eq_self fun step hstep => (hsource step hstep).rename a b,
      Exchange.renameResult_failure (ofSource_of_mem_exchanges hsource hmem) hx a b⟩
  · rw [numbers_append] at hnil
    exact absurd (List.append_eq_nil_iff.mp hnil).2 (List.cons_ne_nil _ _)

/-- **A call under another number** goes as under its own, renamed, if its collaborators mirror
those that it had. -/
theorem run_mirrored {σ σ' : Type} {process : ProcessLabel} {settings : AttestationSettings}
    {request : Request} {c : Collaborators σ} {s : σ} {n : AliasSequence} {c' : Collaborators σ'}
    {s' : σ'} {n' : AliasSequence} :
    let a := callAlias process settings n.next
    let b := callAlias process settings n'.next
    let run := (attest process settings request).run.run c s n
    let run' := (attest process settings request).run.run c' s' n'
    c.Mirrors s a c' s' b →
      run'.steps = run.steps.map (Step.rename a b) ∧ run'.value = renameResult a b run.value := by
  intro a b run run' hmirrors
  have hpath : Path (attest process settings request).run run.steps run.value :=
    path_run c _ s n
  have hgives : n.Gives run.steps := gives_run c _ s n
  have hanswers : c'.Answers s' (run.steps.map (Step.rename a b)) :=
    hmirrors _ (fun step hstep key hkey => key_of_run hstep hkey) (answers_run c _ s n)
  -- the steps, renamed, are a path again, and draw the number of the other run if they draw one
  have hrenamed : Path (attest process settings request).run (run.steps.map (Step.rename a b))
      (renameResult a b run.value) ∧ n'.Gives (run.steps.map (Step.rename a b)) := by
    obtain ⟨number, hnumbers, hpath', hdrawn⟩ := path_rename hpath n'.next
    rcases hnumbers with ⟨hnil, -⟩ | hone
    · obtain ⟨hsteps, hvalue⟩ := path_rename_quiet hpath hnil a b
      rw [hsteps, hvalue]
      exact ⟨hpath, AliasSequence.gives_of_numbers (.inl hnil)⟩
    · have hnext := hgives.next_mem (by simp [hone])
      rw [hone, List.mem_singleton] at hnext
      rw [← hnext] at hpath' hdrawn
      exact ⟨hpath', AliasSequence.gives_of_numbers hdrawn⟩
  have hrun : run' = _ := run_eq_of_leads c' hrenamed.1 hanswers hrenamed.2
  rw [hrun]
  exact ⟨List.append_nil _, rfl⟩

/-! ### Codes with the same members -/

/-- Two lists of codes ask for the same. -/
structure Interchangeable (codes codes' : List Int32) (challenge : Bytes) : Prop where
  /-- They give one request, -/
  request : ∃ r, Request.ofCodes codes challenge = .ok r ∧ Request.ofCodes codes' challenge = .ok r
  /-- which is for the set of the identifiers that they are codes of, -/
  isFor : ∀ r, Request.ofCodes codes challenge = .ok r →
    r.IsFor (fun type => type.code ∈ codes) challenge
  /-- and requires telephony for two of them. -/
  telephony : ∀ r, Request.ofCodes codes challenge = .ok r →
    (r.requiresTelephony = true ↔ 2 ∈ codes ∨ 3 ∈ codes)
  /-- Calls by them are the same, whoever answers. -/
  calls : ∀ {σ : Type} (process : ProcessLabel) (settings : AttestationSettings)
    (c : Collaborators σ) (s : σ) (n : AliasSequence),
    (attestCodes process settings codes challenge).run.run c s n =
      (attestCodes process settings codes' challenge).run.run c s n
  /-- Under another number they are the same up to that number. -/
  renumbered : ∀ {σ σ' : Type} (process : ProcessLabel) (settings : AttestationSettings)
    (c : Collaborators σ) (s : σ) (n : AliasSequence) (c' : Collaborators σ') (s' : σ')
    (n' : AliasSequence),
    let a := callAlias process settings n.next
    let b := callAlias process settings n'.next
    let run := (attestCodes process settings codes challenge).run.run c s n
    let run' := (attestCodes process settings codes' challenge).run.run c' s' n'
    c.Mirrors s a c' s' b →
      run'.steps = run.steps.map (Step.rename a b) ∧ run'.value = renameResult a b run.value

/-- Known codes with the same members are interchangeable. -/
theorem interchangeable_of_known {codes codes' : List Int32} (known : ∀ code ∈ codes, Known code)
    (same : ∀ code, code ∈ codes ↔ code ∈ codes') (challenge : Bytes) :
    Interchangeable codes codes' challenge := by
  obtain ⟨r, hr⟩ := Request.exists_ofCodes_iff.mpr known
  have hr' : Request.ofCodes codes' challenge = .ok r := Request.ofCodes_congr same hr
  constructor
  case request => exact ⟨r, hr, hr'⟩
  case isFor => exact fun _ h => Request.isFor_of_ofCodes h
  case telephony => exact fun _ h => (Request.isFor_of_ofCodes h).telephony
  case calls =>
    intro σ process settings c s n
    rw [attestCodes_of_ofCodes hr, attestCodes_of_ofCodes hr']
  case renumbered =>
    intro σ σ' process settings c s n c' s' n'
    rw [attestCodes_of_ofCodes hr, attestCodes_of_ofCodes hr']
    exact run_mirrored

/-- **Requests are sets.**  By identifiers or by codes, a request is for the set of what it was made
of.  Codes give a request exactly if they are all known, and then that of their identifiers;
otherwise the first one that is not known is told, and a call by them ends before it begins.  Known
codes with the same members are interchangeable. -/
theorem requests_are_sets (challenge : Bytes) :
    (∀ types, (Request.ofTypes types challenge).IsFor (· ∈ types) challenge) ∧
    (∀ types types' : List IdentifierType, (∀ type, type ∈ types ↔ type ∈ types') →
      Request.ofTypes types challenge = Request.ofTypes types' challenge) ∧
    (∀ codes, (∃ r, Request.ofCodes codes challenge = .ok r) ↔
      ∀ code ∈ codes, code = 1 ∨ code = 2 ∨ code = 3) ∧
    (∀ types : List IdentifierType, Request.ofCodes (types.map IdentifierType.code) challenge =
      .ok (Request.ofTypes types challenge)) ∧
    (∀ codes r, Request.ofCodes codes challenge = .ok r →
      ∃ types : List IdentifierType, codes = types.map IdentifierType.code) ∧
    (∀ codes, (∃ code ∈ codes, ¬ (code = 1 ∨ code = 2 ∨ code = 3)) →
      ∃ before code after, codes = before ++ code :: after ∧
        (∀ c ∈ before, c = 1 ∨ c = 2 ∨ c = 3) ∧ ¬ (code = 1 ∨ code = 2 ∨ code = 3) ∧
        Request.ofCodes codes challenge = .error code ∧
        ∀ process settings, attestCodes process settings codes challenge =
          Attempt.fail (.invalidArgument (.unknownIdentifier code))) ∧
    ∀ codes codes', (∀ code ∈ codes, code = 1 ∨ code = 2 ∨ code = 3) →
      (∀ code, code ∈ codes ↔ code ∈ codes') → Interchangeable codes codes' challenge := by
  simp only [← Request.known_iff_eq]
  refine ⟨fun types => Request.isFor_ofTypes types challenge, fun types types' same => ?_,
    fun codes => Request.exists_ofCodes_iff,
    fun types => Request.ofCodes_eq_ok_iff.mpr ⟨types, rfl, rfl⟩, fun codes r h => ?_,
    fun codes unknown => ?_, fun codes codes' known same => interchangeable_of_known known same _⟩
  · have hsame : (· ∈ types) = (· ∈ types') := funext fun type => propext (same type)
    exact (Request.isFor_ofTypes types challenge).eq (hsame ▸ Request.isFor_ofTypes types' challenge)
  · obtain ⟨types, hcodes, -⟩ := Request.ofCodes_eq_ok_iff.mp h
    exact ⟨types, hcodes⟩
  · rcases Request.forall_known_or_exists codes with known | ⟨before, code, after, h⟩
    · obtain ⟨code, hcode, hunknown⟩ := unknown
      exact absurd (known code hcode) hunknown
    · have herror : Request.ofCodes codes challenge = .error code :=
        Request.ofCodes_eq_error_iff.mpr ⟨before, after, h⟩
      exact ⟨before, code, after, h.1, h.2.1, h.2.2, herror, fun _ _ => attestCodes_of_error herror⟩

/-- Repeated codes under one number, and the same in order under another, on a shared store. -/
theorem repeated_codes_interchangeable :
    let process := ProcessLabel.ofNat 7
    let settings : AttestationSettings := ⟨"a", 0⟩
    let n := AliasSequence.start
    let a := callAlias process settings n.next
    let b := callAlias process settings n.advance.next
    let c := Conduct.willing.shared
    let s : (String → Bool) × Unit := (fun _ => false, ())
    let run := (attestCodes process settings [1, 1, 1] []).run.run c s n
    let run' := (attestCodes process settings [1] []).run.run c s n.advance
    c.Mirrors s a c s b ∧ run.steps.length = 11 ∧
      run'.steps = run.steps.map (Step.rename a b) ∧ run'.value = renameResult a b run.value := by
  intro process settings n a b c s run run'
  have hmirrors : c.Mirrors s a c s b := Conduct.willing.mirrors_shared rfl
  obtain ⟨-, -, -, -, -, -, hsets⟩ := requests_are_sets []
  have hknown : ∀ code ∈ ([1, 1, 1] : List Int32), code = 1 ∨ code = 2 ∨ code = 3 := by simp
  have h := hsets [1, 1, 1] [1] hknown (by simp)
  exact ⟨hmirrors, by decide +kernel, h.renumbered process settings c s n c s n.advance hmirrors⟩

end DeviceAttest
