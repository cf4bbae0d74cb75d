import DeviceAttest.Proofs.Call.Form

/-!
# Calls under another number

A call derives its key from the number it draws and uses neither for anything else.  So a path
under one alias is, with number and key renamed, a path under any other (`path_rename`): the same
questions with the same replies, the same events, and the same result.

Renaming replaces the number and the text of an alias by those of another, wherever they stand.
-/

namespace DeviceAttest

open Program

/-! ### Renaming -/

namespace KeyAlias

variable (a b : KeyAlias)

/-- A key with the text of `a` replaced by that of `b`. -/
def renameKey (key : String) : String := if key = a.text then b.text else key

/-- A number with that of `a` replaced by that of `b`. -/
def renameNumber (number : UInt64) : UInt64 := if number = a.number then b.number else number

@[simp] theorem renameKey_text : renameKey a b a.text = b.text := if_pos rfl

@[simp] theorem renameNumber_number : renameNumber a b a.number = b.number := if_pos rfl

@[simp] theorem renameKey_self (key : String) : renameKey a a key = key := by
  by_cases h : key = a.text
  · rw [h, renameKey_text]
  · exact if_neg h

@[simp] theorem renameNumber_self (number : UInt64) : renameNumber a a number = number := by
  by_cases h : number = a.number
  · rw [h, renameNumber_number]
  · exact if_neg h

end KeyAlias

/-- An event with the key renamed. -/
def Event.rename (a b : KeyAlias) : Event → Event
  | clearing key          => clearing (a.renameKey b key)
  | generated key hw sw   => generated (a.renameKey b key) hw sw
  | attested key entries  => attested (a.renameKey b key) entries
  | completed key count   => completed (a.renameKey b key) count
  | removed key           => removed (a.renameKey b key)
  | leftBehind key        => leftBehind (a.renameKey b key)

/-- A step with number and key renamed; the replies stay. -/
def Step.rename (a b : KeyAlias) : Step → Step
  | call (.deleteKey key) reply          => call (.deleteKey (a.renameKey b key)) reply
  | call (.generateKey key params) reply => call (.generateKey (a.renameKey b key) params) reply
  | call (.attestKey key params) reply   => call (.attestKey (a.renameKey b key) params) reply
  | call q reply                         => call q reply
  | drew number                          => drew (a.renameNumber b number)
  | event e                              => event (e.rename a b)

/-- A result with the key renamed. -/
def renameResult (a b : KeyAlias) : Except Failure Chain → Except Failure Chain
  | .error (.error (.temporaryKeyRemoval key)) =>
    .error (.error (.temporaryKeyRemoval (a.renameKey b key)))
  | r => r

theorem Event.rename_self (a : KeyAlias) (e : Event) : e.rename a a = e := by
  cases e <;> simp [Event.rename]

theorem Step.rename_self (a : KeyAlias) (step : Step) : step.rename a a = step := by
  cases step with
  | drew number => simp [Step.rename]
  | event e => simp [Step.rename, Event.rename_self]
  | call q reply => cases q <;> simp [Step.rename]

theorem renameResult_self (a : KeyAlias) (r : Except Failure Chain) : renameResult a a r = r := by
  unfold renameResult
  split
  · rw [KeyAlias.renameKey_self]
  · rfl

/-- What asks the source has no key. -/
theorem Step.OfSource.rename {step : Step} (h : step.OfSource) (a b : KeyAlias) :
    step.rename a b = step := by
  cases step with
  | drew number => exact h.elim
  | event e => exact h.elim
  | call q reply =>
    cases q with
    | deleteKey key => exact absurd h Bool.false_ne_true
    | generateKey key params => exact absurd h Bool.false_ne_true
    | attestKey key params => exact absurd h Bool.false_ne_true
    | _ => rfl

theorem map_rename_eq_self {a b : KeyAlias} {steps : List Step}
    (h : ∀ step ∈ steps, step.rename a b = step) : steps.map (Step.rename a b) = steps :=
  (List.map_congr_left h).trans (List.map_id _)

/-! ### Courses under another alias -/

namespace Attest

variable (a b : KeyAlias) (params : AuthorizationSet)

theorem map_rename_completion (r : Except Failure Chain) :
    (Work.completion a.text r).map (Step.rename a b) = Work.completion b.text r := by
  cases r with
  | error f => rfl
  | ok chain => simp [Work.completion, Step.rename, Event.rename]

theorem Work.map_rename (work : Work) :
    (work.steps a.text params).map (Step.rename a b) = work.steps b.text params := by
  cases work with
  | generateFault f => simp [Work.steps, Step.rename]
  | generateRefused code => simp [Work.steps, Step.rename]
  | attestFault made f => simp [Work.steps, Work.generation, Step.rename, Event.rename]
  | attestRefused made code => simp [Work.steps, Work.generation, Step.rename, Event.rename]
  | tooFew made entries few =>
    simp [Work.steps, Work.generation, Work.attestation, Step.rename, Event.rename]
  | decoded made entries enough reply =>
    simp [Work.steps, Work.generation, Work.attestation, Step.rename, Event.rename,
      map_rename_completion]

/-- The result of work names no key. -/
theorem Work.renameResult (work : Work) : renameResult a b work.result = work.result := by
  cases work with
  | decoded made entries enough reply =>
    rcases reply with f | cause | certificates
    · rfl
    · rfl
    · show DeviceAttest.renameResult a b ((Chain.ofCertificates certificates).mapError _) =
        (Chain.ofCertificates certificates).mapError _
      cases Chain.ofCertificates certificates with
      | error fault => rfl
      | ok chain => rfl
  | _ => rfl

/-- A course under one alias is that under another, renamed. -/
theorem Course.map_rename (course : Course) :
    (course.steps a.text params).map (Step.rename a b) = course.steps b.text params := by
  cases course with
  | clearFault f => simp [Course.steps, Step.rename, Event.rename]
  | refused => simp [Course.steps, Step.rename, Event.rename]
  | cleared work last =>
    have hrelease : (Course.release a.text last).map (Step.rename a b) =
        Course.release b.text last := by
      rcases last with f | _ | _ <;>
        simp [Course.release, Course.told, Step.rename, Event.rename]
    simp [Course.steps, Step.rename, Event.rename, Work.map_rename, hrelease]

theorem Course.renameResult (course : Course) :
    renameResult a b (course.result a.text) = course.result b.text := by
  cases course with
  | clearFault f => rfl
  | refused => simp [Course.result, DeviceAttest.renameResult]
  | cleared work last =>
    cases last with
    | ok removed =>
      rw [Course.result, Course.result, Attempt.afterCleanUp_ok]
      exact work.renameResult a b
    | error f =>
      -- neither a fault nor an abort names a key
      rw [Course.result, Course.result]
      rcases work.result with (cause | text | _) | chain <;> rfl

end Attest

/-! ### Calls under another number -/

/-- **A path under another number.**  A path that draws a number is, renamed, a path that draws
any other; a path that draws none stays as it is. -/
theorem path_rename {process : ProcessLabel} {settings : AttestationSettings} {request : Request}
    {steps : List Step} {r : Except Failure Chain}
    (h : Path (attest process settings request).run steps r) (number' : UInt64) :
    ∃ number,
      (Step.numbers steps = [] ∧ number = number' ∨ Step.numbers steps = [number]) ∧
      let a := callAlias process settings number
      let b := callAlias process settings number'
      Path (attest process settings request).run (steps.map (Step.rename a b))
          (renameResult a b r) ∧
        (Step.numbers (steps.map (Step.rename a b)) = [] ∨
          Step.numbers (steps.map (Step.rename a b)) = [number']) := by
  have hquiet {early : List Step} {x : Except Failure AuthorizationSet}
      (hc : Path (Attest.collectParams settings.imeiSlot request).run early x) :
      Step.numbers early = [] :=
    numbers_eq_nil fun step hs => (Attest.always_collectParams _ _ _ _ hc step hs).quiet
  rcases path_attest.mp h with ⟨f, hc, -⟩ | ⟨params, early, number, course, hc, rfl, rfl⟩
  · -- nothing is drawn, so any alias will do: renaming it to itself changes nothing
    have hmap : steps.map (Step.rename (callAlias process settings number')
        (callAlias process settings number')) = steps :=
      map_rename_eq_self fun step _ => step.rename_self _
    refine ⟨number', .inl ⟨hquiet hc, rfl⟩, ?_⟩
    intro a b
    rw [hmap, renameResult_self]
    exact ⟨h, .inl (hquiet hc)⟩
  · have hnumbers (number : UInt64) : Step.numbers (early ++ .drew number ::
        course.steps (aliasText process settings number) params) = [number] := by
      rw [numbers_append, hquiet hc]
      exact congrArg (number :: ·) (numbers_course _ _ _)
    refine ⟨number, .inr (hnumbers number), ?_⟩
    intro a b
    have hearly : early.map (Step.rename a b) = early := map_rename_eq_self fun step hs =>
      (Attest.always_collectParams _ _ _ _ hc step hs).rename a b
    have hcourse : (course.steps (aliasText process settings number) params).map
        (Step.rename a b) = course.steps (aliasText process settings number') params :=
      course.map_rename a b params
    have hresult : renameResult a b (course.result (aliasText process settings number)) =
        course.result (aliasText process settings number') :=
      course.renameResult a b
    have hmap : (early ++ .drew number ::
          course.steps (aliasText process settings number) params).map (Step.rename a b) =
        early ++ .drew number' :: course.steps (aliasText process settings number') params := by
      rw [List.map_append, List.map_cons, hcourse, hearly]
      exact congrArg (early ++ .drew · :: _) (a.renameNumber_number b)
    rw [hmap, hresult]
    exact ⟨path_attest.mpr (.inr ⟨params, early, number', course, hc, rfl, rfl⟩),
      .inr (hnumbers number')⟩

end DeviceAttest
