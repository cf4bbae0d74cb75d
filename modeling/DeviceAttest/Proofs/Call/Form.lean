import DeviceAttest.Proofs.Call.Collect
import DeviceAttest.Proofs.Call.Course
import DeviceAttest.Proofs.Call.Numbers

/-!
# The form of a call

For the keys of a keystore a call has one of three forms (`Call.Form`): it is quiet throughout; or
after a quiet beginning it draws a number and its only deletion is not consented to; or that
deletion is consented to, a generation follows at once, and after quiet steps the last deletion.
All keys named are the alias of the number drawn.
-/

namespace DeviceAttest

open Program

/-- Whether a question may change the keys of a keystore. -/
def Query.writesKeys : Query → Bool
  | deleteKey _     => true
  | generateKey _ _ => true
  | _               => false

/-- A step that changes no keys and draws no number. -/
def Step.Quiet : Step → Prop
  | .call q _ => q.writesKeys = false
  | .drew _   => False
  | .event _  => True

theorem Step.OfSource.quiet {step : Step} (h : step.OfSource) : step.Quiet := by
  cases step with
  | drew number => exact h.elim
  | event e => trivial
  | call q reply =>
    cases q with
    | deleteKey key => exact absurd h Bool.false_ne_true
    | generateKey key params => exact absurd h Bool.false_ne_true
    | _ => rfl

/-- Quiet steps draw no number. -/
theorem after_of_quiet {steps : List Step} (h : ∀ step ∈ steps, step.Quiet)
    (n : AliasSequence) : n.after steps = n := by
  induction steps with
  | nil => rfl
  | cons step steps ih =>
    have hquiet := h step List.mem_cons_self
    cases step with
    | call q reply => exact ih fun step hs => h step (List.mem_cons_of_mem _ hs)
    | drew number => exact hquiet.elim
    | event e => exact ih fun step hs => h step (List.mem_cons_of_mem _ hs)

theorem Step.Quiet.number?_eq_none {step : Step} (h : step.Quiet) : step.number? = none := by
  cases step with
  | drew number => exact h.elim
  | event e => rfl
  | call q reply => rfl

theorem numbers_eq_nil {steps : List Step} (h : ∀ step ∈ steps, step.Quiet) :
    Step.numbers steps = [] :=
  List.filterMap_eq_nil_iff.mpr fun step hs => (h step hs).number?_eq_none

/-! ### The form of the work -/

theorem Attest.Work.quiet_completion (key : String) (r : Except Failure Chain) :
    ∀ step ∈ Work.completion key r, step.Quiet := by
  cases r with
  | error f => simp [Work.completion]
  | ok chain => simp [Work.completion, Step.Quiet]

/-- Work begins with a generation, and is quiet from there on. -/
theorem Attest.Work.steps_eq_generate (work : Work) (key : String) (params : AuthorizationSet) :
    ∃ reply later,
      work.steps key params = .call (.generateKey key temporaryKeyParams) reply :: later ∧
        ∀ step ∈ later, step.Quiet := by
  cases work with
  | generateFault f => exact ⟨_, [], rfl, by simp⟩
  | generateRefused code => exact ⟨_, [], rfl, by simp⟩
  | attestFault made f => exact ⟨_, _, rfl, by simp [Step.Quiet, Query.writesKeys]⟩
  | attestRefused made code => exact ⟨_, _, rfl, by simp [Step.Quiet, Query.writesKeys]⟩
  | tooFew made entries few =>
    exact ⟨_, _, rfl, by simp [Work.attestation, Step.Quiet, Query.writesKeys]⟩
  | decoded made entries enough reply =>
    refine ⟨_, _, rfl, fun step hs => ?_⟩
    simp only [List.nil_append, List.cons_append, List.mem_cons, Work.attestation,
      List.append_eq] at hs
    rcases hs with rfl | rfl | rfl | rfl | hs
    · trivial
    · rfl
    · trivial
    · rfl
    · exact Work.quiet_completion _ _ step hs

/-- A course draws no number. -/
theorem numbers_course (key : String) (params : AuthorizationSet) (course : Attest.Course) :
    Step.numbers (course.steps key params) = [] := by
  cases course with
  | clearFault f => rfl
  | refused => rfl
  | cleared work last =>
    obtain ⟨reply, later, hsteps, hl⟩ := work.steps_eq_generate key params
    rw [Attest.Course.steps, hsteps]
    show Step.numbers (later ++ Attest.Course.release key last) = []
    rw [numbers_append, numbers_eq_nil hl]
    rcases last with f | _ | _ <;> rfl

/-! ### The form of a call -/

namespace Call

/-- The steps of a call that generates: an early part, the number with the first deletion and the
generation under its key, a later part, and the last deletion with what is told of it. -/
def wholeSteps (key : String) (early : List Step) (number : UInt64)
    (reply : Except Fault (Except StatusCode KeyCharacteristics)) (later : List Step)
    (last : Except Fault Bool) (told : List Event) : List Step :=
  early ++ .drew number :: .event (.clearing key) :: .call (.deleteKey key) (.ok true) ::
    .call (.generateKey key Attest.temporaryKeyParams) reply ::
    (later ++ .call (.deleteKey key) last :: told.map .event)

/-- The form of a call's steps, by the key of a number. -/
inductive Form (keyOf : UInt64 → String) : List Step → Prop where
  | quiet {steps : List Step} (h : ∀ step ∈ steps, step.Quiet) : Form keyOf steps
  | refused {early : List Step} (h : ∀ step ∈ early, step.Quiet) (number : UInt64)
      (reply : Except Fault Bool) (unconsented : reply ≠ .ok true) :
      Form keyOf (early ++
        [.drew number, .event (.clearing (keyOf number)), .call (.deleteKey (keyOf number)) reply])
  | whole {early later : List Step} (he : ∀ step ∈ early, step.Quiet) (number : UInt64)
      (reply : Except Fault (Except StatusCode KeyCharacteristics))
      (hl : ∀ step ∈ later, step.Quiet) (last : Except Fault Bool) (told : List Event) :
      Form keyOf (wholeSteps (keyOf number) early number reply later last told)

end Call

/-- Every path of a call has the form. -/
theorem form_path {process : ProcessLabel} {settings : AttestationSettings} {request : Request}
    {steps : List Step} {r : Except Failure Chain}
    (h : Path (attest process settings request).run steps r) :
    Call.Form (aliasText process settings) steps := by
  rcases path_attest.mp h with ⟨f, hc, -⟩ | ⟨params, early, number, course, hc, rfl, -⟩
  · exact .quiet fun step hs => (Attest.always_collectParams _ _ _ _ hc step hs).quiet
  · have he : ∀ step ∈ early, step.Quiet := fun step hs =>
      (Attest.always_collectParams _ _ _ _ hc step hs).quiet
    cases course with
    | clearFault f => exact .refused he number (.error f) nofun
    | refused => exact .refused he number (.ok false) nofun
    | cleared work last =>
      obtain ⟨reply, later, hsteps, hl⟩ :=
        work.steps_eq_generate (aliasText process settings number) params
      rw [Attest.Course.steps, hsteps]
      exact .whole he number reply hl last _

/-- A call by codes has the form, too: unknown codes leave nothing to do. -/
theorem form_path_codes {process : ProcessLabel} {settings : AttestationSettings}
    {codes : List Int32} {challenge : Bytes} {steps : List Step} {r : Except Failure Chain}
    (h : Path (attestCodes process settings codes challenge).run steps r) :
    Call.Form (aliasText process settings) steps := by
  unfold attestCodes at h
  cases hr : Request.ofCodes codes challenge with
  | ok request =>
    rw [hr] at h
    exact form_path h
  | error code =>
    rw [hr] at h
    obtain ⟨rfl, -⟩ := path_done.mp h
    exact .quiet fun step hs => absurd hs List.not_mem_nil

end DeviceAttest
