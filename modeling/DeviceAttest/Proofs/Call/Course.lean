import DeviceAttest.Call.Attest
import DeviceAttest.Proofs.Call.Path

/-!
# The course of a call

What a call does once its identifiers are collected is told by a `Course`: the keystore breaks off
or refuses to clear the alias, or it consents and some `Work` follows, up to the stage that fails,
and then the last deletion, which may break off as well.  A course has its steps and its result,
both in terms of the alias and of the collected parameters.

* `path_underKey`: the paths under an alias are those of the courses;
* `path_attest`: the paths of a call are the failed collections, and the successful ones followed
  by a number drawn and the steps of a course under its alias.
-/

namespace DeviceAttest

namespace Attest

open Program

/-! ### Work between the two deletions -/

/-- What is done between the two deletions of a call, as far as the call gets. -/
inductive Work where
  | generateFault (fault : Fault)
  | generateRefused (code : StatusCode)
  | attestFault (made : KeyCharacteristics) (fault : Fault)
  | attestRefused (made : KeyCharacteristics) (code : StatusCode)
  | tooFew (made : KeyCharacteristics) (entries : List Bytes)
      (few : entries.length < ChainFault.minLength)
  | decoded (made : KeyCharacteristics) (entries : List Bytes)
      (enough : ¬ entries.length < ChainFault.minLength)
      (reply : Except Fault (Except DecodeError (List Certificate)))

/-- The result of a call whose decoder gave this reply. -/
def ofDecoder : Except Fault (Except DecodeError (List Certificate)) → Except Failure Chain
  | .error f               => .error (.fault f.text)
  | .ok (.error cause)     => .error (.error (.malformedChain (.undecodable cause)))
  | .ok (.ok certificates) =>
    (Chain.ofCertificates certificates).mapError fun fault => .error (.malformedChain fault)

/-- Certificates that are enough make a chain. -/
theorem ofDecoder_of_le {certificates : List Certificate}
    (h : ChainFault.minLength ≤ certificates.length) :
    ofDecoder (.ok (.ok certificates)) = .ok ⟨certificates, h⟩ := by
  rw [ofDecoder, Chain.ofCertificates, dif_pos h]
  rfl

theorem ofDecoder_of_lt {certificates : List Certificate}
    (h : certificates.length < ChainFault.minLength) :
    ofDecoder (.ok (.ok certificates)) =
      .error (.error (.malformedChain (.tooFewCertificates certificates.length))) := by
  rw [ofDecoder, Chain.ofCertificates, dif_neg (Nat.not_le_of_lt h)]
  rfl

namespace Work

/-- The result of a call by its work. -/
def result : Work → Except Failure Chain
  | generateFault f      => .error (.fault f.text)
  | generateRefused code => .error (.error (.keystore .generate code))
  | attestFault _ f      => .error (.fault f.text)
  | attestRefused _ code => .error (.error (.keystore .attest code))
  | tooFew _ entries _   => .error (.error (.malformedChain (.tooFewEntries entries.length)))
  | decoded _ _ _ reply  => ofDecoder reply

/-- The steps of a generation that gives a key. -/
def generation (key : String) (made : KeyCharacteristics) : List Step :=
  [.call (.generateKey key temporaryKeyParams) (.ok (.ok made)),
   .event (.generated key made.hardwareEnforced.size made.softwareEnforced.size)]

/-- The steps of an attestation that gives a raw chain. -/
def attestation (key : String) (params : AuthorizationSet) (entries : List Bytes) : List Step :=
  [.call (.attestKey key params) (.ok (.ok entries)), .event (.attested key entries.length)]

/-- The event of a call that gives a chain. -/
def completion (key : String) : Except Failure Chain → List Step
  | .ok chain => [.event (.completed key chain.length)]
  | .error _  => []

/-- The steps of the work. -/
def steps (key : String) (params : AuthorizationSet) : Work → List Step
  | generateFault f          => [.call (.generateKey key temporaryKeyParams) (.error f)]
  | generateRefused code     => [.call (.generateKey key temporaryKeyParams) (.ok (.error code))]
  | attestFault made f       => generation key made ++ [.call (.attestKey key params) (.error f)]
  | attestRefused made code  =>
    generation key made ++ [.call (.attestKey key params) (.ok (.error code))]
  | tooFew made entries _    => generation key made ++ attestation key params entries
  | decoded made entries _ reply =>
    generation key made ++ attestation key params entries ++
      .call (.decode entries.flatten) reply :: completion key (ofDecoder reply)

end Work

/-! ### The paths through the work -/

/-- The end of a call that has a result: a chain is reported. -/
def conclude (key : String) : Except Failure Chain → Program (Except Failure Chain)
  | .ok chain => .report (.completed key chain.length) (.done (.ok chain))
  | .error f  => .done (.error f)

theorem path_conclude {key : String} {r r' : Except Failure Chain} {steps : List Step} :
    Path (conclude key r) steps r' ↔ steps = Work.completion key r ∧ r' = r := by
  cases r with
  | error f => exact path_done
  | ok chain =>
    constructor
    · intro h
      obtain ⟨later, rfl, hl⟩ := path_report.mp h
      obtain ⟨rfl, rfl⟩ := path_done.mp hl
      exact ⟨rfl, rfl⟩
    · rintro ⟨rfl, rfl⟩
      exact .report (.refl _)

/-- The last stage of a call: the entries are decoded and the chain is reported. -/
def finish (key : String) (entries : List Bytes) : Attempt Chain := do
  let chain ← decodeChain entries
  Program.tell (.completed key chain.length)
  pure chain

/-- Too few entries never reach the decoder. -/
theorem finish_run_few (key : String) {entries : List Bytes}
    (few : entries.length < ChainFault.minLength) :
    (finish key entries).run =
      .done (.error (.error (.malformedChain (.tooFewEntries entries.length)))) := by
  have h : chainStream entries = .error (.tooFewEntries entries.length) := if_pos few
  rw [finish, decodeChain, h]
  rfl

theorem finish_run_enough (key : String) {entries : List Bytes}
    (enough : ¬ entries.length < ChainFault.minLength) :
    (finish key entries).run =
      .ask (.decode entries.flatten) fun reply => conclude key (ofDecoder reply) := by
  have h : chainStream entries = .ok entries.flatten := if_neg enough
  have checked (x : Except ChainFault Chain) :
      (do let chain ← checkChain x
          Program.tell (.completed key chain.length)
          pure chain : Attempt Chain).run =
        conclude key (x.mapError fun fault => .error (.malformedChain fault)) := by
    cases x with
    | error fault => rfl
    | ok chain => rfl
  rw [finish, decodeChain, h]
  refine congrArg (Program.ask _) (funext fun reply => ?_)
  rcases reply with f | cause | certificates
  · rfl
  · rfl
  · exact checked _

/-- **The paths between the two deletions** are those of some work. -/
theorem path_attestKey {key : String} {params : AuthorizationSet} {steps : List Step}
    {r : Except Failure Chain} :
    Path (attestKey key params).run steps r ↔
      ∃ work : Work, steps = work.steps key params ∧ r = work.result := by
  constructor
  · intro h
    -- a reply that is no success ends the work where it comes
    obtain ⟨reply, _, rfl, h₁⟩ := path_ask.mp h
    rcases reply with f | code | made
    · obtain ⟨rfl, rfl⟩ := path_done.mp h₁
      exact ⟨.generateFault f, rfl, rfl⟩
    · obtain ⟨rfl, rfl⟩ := path_done.mp h₁
      exact ⟨.generateRefused code, rfl, rfl⟩
    obtain ⟨_, rfl, h₂⟩ := path_report.mp h₁
    obtain ⟨reply, later, rfl, h₃⟩ := path_ask.mp h₂
    rcases reply with f | code | entries
    · obtain ⟨rfl, rfl⟩ := path_done.mp h₃
      exact ⟨.attestFault made f, rfl, rfl⟩
    · obtain ⟨rfl, rfl⟩ := path_done.mp h₃
      exact ⟨.attestRefused made code, rfl, rfl⟩
    obtain ⟨later, rfl, h₄⟩ := path_report.mp h₃
    have h₅ : Path (finish key entries).run later r := h₄
    by_cases few : entries.length < ChainFault.minLength
    · rw [finish_run_few key few] at h₅
      obtain ⟨rfl, rfl⟩ := path_done.mp h₅
      exact ⟨.tooFew made entries few, rfl, rfl⟩
    · rw [finish_run_enough key few] at h₅
      obtain ⟨reply, _, rfl, h₆⟩ := path_ask.mp h₅
      obtain ⟨rfl, rfl⟩ := path_conclude.mp h₆
      exact ⟨.decoded made entries few reply, rfl, rfl⟩
  · rintro ⟨work, rfl, rfl⟩
    cases work with
    | generateFault f => exact .ask _ (.refl _)
    | generateRefused code => exact .ask _ (.refl _)
    | attestFault made f => exact .ask _ (.report (.ask _ (.refl _)))
    | attestRefused made code => exact .ask _ (.report (.ask _ (.refl _)))
    | tooFew made entries few =>
      have h : Path (finish key entries).run [] (Work.tooFew made entries few).result := by
        rw [finish_run_few key few]
        exact .refl _
      exact .ask _ (.report (.ask _ (.report h)))
    | decoded made entries enough reply =>
      have h : Path (finish key entries).run
          (.call (.decode entries.flatten) reply :: Work.completion key (ofDecoder reply))
          (ofDecoder reply) := by
        rw [finish_run_enough key enough]
        exact .ask _ (path_conclude.mpr ⟨rfl, rfl⟩)
      exact .ask _ (.report (.ask _ (.report h)))

/-! ### Courses -/

/-- How a call goes once its alias is drawn. -/
inductive Course where
  | clearFault (fault : Fault)
  | refused
  | cleared (work : Work) (last : Except Fault Bool)

namespace Course

/-- What is reported of the last deletion: its answer, if there is one. -/
def told (key : String) : Except Fault Bool → List Event
  | .ok true  => [.removed key]
  | .ok false => [.leftBehind key]
  | .error _  => []

/-- The steps of the last deletion. -/
def release (key : String) (last : Except Fault Bool) : List Step :=
  .call (.deleteKey key) last :: (told key last).map .event

/-- The steps of a course. -/
def steps (key : String) (params : AuthorizationSet) : Course → List Step
  | clearFault f      => [.event (.clearing key), .call (.deleteKey key) (.error f)]
  | refused           => [.event (.clearing key), .call (.deleteKey key) (.ok false)]
  | cleared work last =>
    .event (.clearing key) :: .call (.deleteKey key) (.ok true) ::
      (work.steps key params ++ release key last)

/-- The result of a course. -/
def result (key : String) : Course → Except Failure Chain
  | clearFault f      => .error (.fault f.text)
  | refused           => .error (.error (.temporaryKeyRemoval key))
  | cleared work last => Attempt.afterCleanUp work.result last

end Course

/-- What a call does once its alias is drawn. -/
def underKey (key : String) (params : AuthorizationSet) : Attempt Chain := do
  Program.tell (.clearing key)
  let cleared ← Attempt.answer (.query (.deleteKey key))
  if cleared then (attestKey key params).ensuring (releaseKey key)
  else Attempt.fail (.temporaryKeyRemoval key)

theorem path_releaseKey {key : String} {steps : List Step} {last : Except Fault Bool} :
    Path (releaseKey key) steps last ↔ steps = Course.release key last := by
  constructor
  · intro h
    obtain ⟨reply, _, rfl, h₁⟩ := path_ask.mp h
    rcases reply with f | _ | _
    · obtain ⟨rfl, rfl⟩ := path_done.mp h₁
      rfl
    · obtain ⟨_, rfl, h₂⟩ := path_report.mp h₁
      obtain ⟨rfl, rfl⟩ := path_done.mp h₂
      rfl
    · obtain ⟨_, rfl, h₂⟩ := path_report.mp h₁
      obtain ⟨rfl, rfl⟩ := path_done.mp h₂
      rfl
  · rintro rfl
    rcases last with f | _ | _
    · exact .ask _ (.refl _)
    · exact .ask _ (.report (.refl _))
    · exact .ask _ (.report (.refl _))

/-- **The paths under an alias** are those of the courses. -/
theorem path_underKey {key : String} {params : AuthorizationSet} {steps : List Step}
    {r : Except Failure Chain} :
    Path (underKey key params).run steps r ↔
      ∃ course : Course, steps = course.steps key params ∧ r = course.result key := by
  constructor
  · intro h
    obtain ⟨_, rfl, h₁⟩ := path_report.mp h
    obtain ⟨cleared, _, rfl, h₂⟩ := path_ask.mp h₁
    rcases cleared with f | _ | _
    · obtain ⟨rfl, rfl⟩ := path_done.mp h₂
      exact ⟨.clearFault f, rfl, rfl⟩
    · obtain ⟨rfl, rfl⟩ := path_done.mp h₂
      exact ⟨.refused, rfl, rfl⟩
    · -- whatever the work comes to, the release follows it
      have h₃ : Path ((attestKey key params).ensuring (releaseKey key)).run _ r := h₂
      obtain ⟨_, last, _, _, rfl, h₄, h₅, rfl⟩ := Attempt.path_ensuring.mp h₃
      obtain ⟨work, rfl, rfl⟩ := path_attestKey.mp h₄
      obtain rfl := path_releaseKey.mp h₅
      exact ⟨.cleared work last, rfl, rfl⟩
  · rintro ⟨course, rfl, rfl⟩
    cases course with
    | clearFault f => exact .report (.ask _ (.refl _))
    | refused => exact .report (.ask _ (.refl _))
    | cleared work last =>
      have h : Path ((attestKey key params).ensuring (releaseKey key)).run
          (work.steps key params ++ Course.release key last)
          (Attempt.afterCleanUp work.result last) :=
        Attempt.path_ensuring.mpr ⟨_, _, _, _, rfl, path_attestKey.mpr ⟨work, rfl, rfl⟩,
          path_releaseKey.mpr rfl, rfl⟩
      exact .report (.ask _ h)

end Attest

/-! ### Whole calls -/

open Program

/-- The alias that a call derives from a number. -/
def callAlias (process : ProcessLabel) (settings : AttestationSettings) (number : UInt64) :
    KeyAlias :=
  ⟨settings.aliasBase, process, number⟩

/-- The key that a call derives from a number. -/
def aliasText (process : ProcessLabel) (settings : AttestationSettings) (number : UInt64) :
    String :=
  (callAlias process settings number).text

/-- A call collects, then draws a number and goes on under its alias. -/
theorem attest_run (process : ProcessLabel) (settings : AttestationSettings) (request : Request) :
    (attest process settings request).run =
      (Attest.collectParams settings.imeiSlot request).run.bind fun
        | .error f   => .done (.error f)
        | .ok params => .draw fun number =>
          (Attest.underKey (aliasText process settings number) params).run := by
  refine congrArg (Program.bind _) (funext fun r => ?_)
  cases r with
  | error f => rfl
  | ok params => rfl

/-- **The paths of a call**: the failed collections, and the successful ones followed by a number
and a course. -/
theorem path_attest {process : ProcessLabel} {settings : AttestationSettings} {request : Request}
    {steps : List Step} {r : Except Failure Chain} :
    Path (attest process settings request).run steps r ↔
      (∃ f, Path (Attest.collectParams settings.imeiSlot request).run steps (.error f) ∧
        r = .error f) ∨
      ∃ params early number, ∃ course : Attest.Course,
        Path (Attest.collectParams settings.imeiSlot request).run early (.ok params) ∧
        steps = early ++ .drew number ::
          course.steps (aliasText process settings number) params ∧
        r = course.result (aliasText process settings number) := by
  rw [attest_run, path_bind]
  constructor
  · rintro ⟨collected, early, _, rfl, h₁, h₂⟩
    cases collected with
    | error f =>
      obtain ⟨rfl, rfl⟩ := path_done.mp h₂
      exact .inl ⟨f, by rwa [List.append_nil], rfl⟩
    | ok params =>
      obtain ⟨number, _, rfl, h₃⟩ := path_draw.mp h₂
      obtain ⟨course, rfl, rfl⟩ := Attest.path_underKey.mp h₃
      exact .inr ⟨params, early, number, course, h₁, rfl, rfl⟩
  · rintro (⟨f, h, rfl⟩ | ⟨params, early, number, course, h, rfl, rfl⟩)
    · exact ⟨.error f, steps, [], (List.append_nil _).symm, h, .refl _⟩
    · exact ⟨.ok params, early, _, rfl, h, .draw _ (Attest.path_underKey.mpr ⟨course, rfl, rfl⟩)⟩

end DeviceAttest
