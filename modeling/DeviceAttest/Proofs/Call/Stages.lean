import DeviceAttest.Proofs.Call.Lifecycle

/-!
# Stages that fail

Every question of a call is a stage of it, and the reply alone says whether the stage fails and
with what (`Query.failure?`).  Exchanges decide a result (`Decides`) if none of them fails and the
result is no failure, or if the last one is the first to fail and the result is its failure.

* `decides_collectParams`: the exchanges of a collection decide its result;
* `Attest.Course.decides`: those of a course decide its result, all but the last deletion, which
  has no part in it.
-/

namespace DeviceAttest

open Program

/-! ### What fails -/

/-- The failure of a reply: a fault, or the error that a check finds in an answer. -/
def replyFailure? {α : Type} (check : α → Option AttestationError) :
    Except Fault α → Option Failure
  | .error f => some (.fault f.text)
  | .ok a    => (check a).map .error

/-- The error of an answer: a refusal, or what a check finds in what is granted. -/
def answerError? {ε α : Type} (refused : ε → AttestationError)
    (check : α → Option AttestationError) : Except ε α → Option AttestationError
  | .error e => some (refused e)
  | .ok a    => check a

/-- The error of an identifier that is denied. -/
def denialError : SourceError → AttestationError
  | .permissionDenied reason => .permissionDenied reason

/-- The error of an identifier that is absent. -/
def absenceError? (type : IdentifierType) : Option String → Option AttestationError
  | none   => some (.identifierUnavailable (.identifier type))
  | some _ => none

/-- The error of fewer items than a chain has. -/
def countError? {α : Type} (fault : Nat → ChainFault) (items : List α) : Option AttestationError :=
  if items.length < ChainFault.minLength then some (.malformedChain (fault items.length)) else none

/-- **The failure of a stage**, by its question and the reply. -/
def Query.failure? : (q : Query) → q.Reply → Option Failure
  | telephony       =>
    replyFailure? fun there =>
      if there then none else some (.identifierUnavailable .telephonyService)
  | serial          => replyFailure? (answerError? denialError fun _ => none)
  | imei _          => replyFailure? (answerError? denialError (absenceError? .imei))
  | meid            => replyFailure? (answerError? denialError (absenceError? .meid))
  | buildProperties => replyFailure? fun _ => none
  | deleteKey key   =>
    replyFailure? fun removed => if removed then none else some (.temporaryKeyRemoval key)
  | generateKey _ _ => replyFailure? (answerError? (.keystore .generate) fun _ => none)
  | attestKey _ _   =>
    replyFailure? (answerError? (.keystore .attest) (countError? .tooFewEntries))
  | decode _        =>
    replyFailure? <|
      answerError? (fun cause => .malformedChain (.undecodable cause))
        (countError? .tooFewCertificates)

/-- The failure of an exchange. -/
def Exchange.failure? (x : Exchange) : Option Failure := x.1.failure? x.2

/-- The failure that a result is. -/
def failureOf {α : Type} : Except Failure α → Option Failure
  | .ok _    => none
  | .error f => some f

/-- Exchanges decide a result: no exchange fails and neither does the result, or the last one is the
first to fail, and with the result. -/
def Decides {α : Type} (xs : List Exchange) : Except Failure α → Prop
  | .ok _    => ∀ x ∈ xs, x.failure? = none
  | .error f => ∃ before x, xs = before ++ [x] ∧ (∀ y ∈ before, y.failure? = none) ∧
      x.failure? = some f

section

variable {α β : Type} {xs ys : List Exchange}

theorem decides_nil (a : α) : Decides [] (.ok a : Except Failure α) :=
  fun _ hx => absurd hx List.not_mem_nil

/-- One exchange decides a result that fails as it does. -/
theorem decides_singleton {x : Exchange} {r : Except Failure α} (h : x.failure? = failureOf r) :
    Decides [x] r := by
  cases r with
  | ok a => exact List.forall_mem_singleton.mpr h
  | error f => exact ⟨[], x, rfl, fun _ hy => absurd hy List.not_mem_nil, h⟩

/-- After exchanges that do not fail, further ones decide. -/
theorem Decides.append {a : α} {r : Except Failure β} (hxs : Decides xs (.ok a : Except Failure α))
    (hys : Decides ys r) : Decides (xs ++ ys) r := by
  cases r with
  | ok b => exact List.forall_mem_append.mpr ⟨hxs, hys⟩
  | error f =>
    obtain ⟨before, x, rfl, hbefore, hx⟩ := hys
    exact ⟨xs ++ before, x, (List.append_assoc ..).symm,
      List.forall_mem_append.mpr ⟨hxs, hbefore⟩, hx⟩

/-! ### Attempts that are decided -/

/-- On every path the exchanges decide the result. -/
def Decided (x : Attempt α) : Prop :=
  ∀ steps r, Path x.run steps r → Decides (Step.exchanges steps) r

theorem decided_pure (a : α) : Decided (pure a : Attempt α) := by
  intro steps r h
  obtain ⟨rfl, rfl⟩ := path_done.mp h
  exact decides_nil a

/-- A question whose reply ends the attempt with its failure, or else lets it go on. -/
theorem decided_ask {q : Query} {next : q.Reply → Program (Except Failure α)}
    (h : ∀ reply, ∃ r, next reply = .done r ∧ q.failure? reply = failureOf r) :
    Decided (ExceptT.mk (.ask q next) : Attempt α) := by
  intro steps r hpath
  obtain ⟨reply, later, rfl, hlater⟩ := path_ask.mp hpath
  obtain ⟨r', hnext, hfailure⟩ := h reply
  rw [hnext] at hlater
  obtain ⟨rfl, rfl⟩ := path_done.mp hlater
  exact decides_singleton hfailure

theorem decided_bind {x : Attempt α} {f : α → Attempt β} (hx : Decided x)
    (hf : ∀ a, Decided (f a)) : Decided (x >>= f) := by
  intro steps r h
  obtain ⟨a, front, back, rfl, h₁, h₂⟩ := path_bind.mp h
  rw [exchanges_append]
  cases a with
  | ok a => exact (hx front _ h₁).append (hf a back r h₂)
  | error e =>
    obtain ⟨rfl, rfl⟩ := path_done.mp h₂
    show Decides (Step.exchanges front ++ []) _
    rw [List.append_nil]
    exact hx front _ h₁

end

/-! ### Collecting -/

namespace Attest

theorem decided_readDirectly (slot : UInt32) (type : IdentifierType) :
    Decided (readDirectly slot type) := by
  cases type with
  | serial =>
    refine decided_ask fun reply => ?_
    rcases reply with f | e | value
    · exact ⟨.error (.fault f.text), rfl, rfl⟩
    · exact ⟨.error (.error (.ofSource e)), rfl, rfl⟩
    · exact ⟨.ok value, rfl, rfl⟩
  | imei | meid =>
    refine decided_ask fun reply => ?_
    rcases reply with f | e | _ | value
    · exact ⟨.error (.fault f.text), rfl, rfl⟩
    · exact ⟨.error (.error (.ofSource e)), rfl, rfl⟩
    · exact ⟨.error (.error (.identifierUnavailable (.identifier _))), rfl, rfl⟩
    · exact ⟨.ok value, rfl, rfl⟩

theorem decided_readAllDirectly (slot : UInt32) (types : List IdentifierType) :
    Decided (readAllDirectly slot types) := by
  induction types with
  | nil => exact decided_pure _
  | cons type types ih =>
    exact decided_bind (decided_readDirectly slot type) fun _ =>
      decided_bind ih fun _ => decided_pure _

theorem decided_requireTelephony : Decided requireTelephony := by
  refine decided_ask fun reply => ?_
  rcases reply with f | _ | _
  · exact ⟨.error (.fault f.text), rfl, rfl⟩
  · exact ⟨.error (.error (.identifierUnavailable .telephonyService)), rfl, rfl⟩
  · exact ⟨.ok (), rfl, rfl⟩

theorem decided_buildProperties :
    Decided (Attempt.answer (.query .buildProperties) : Attempt BuildProperties) := by
  refine decided_ask fun reply => ?_
  rcases reply with f | build
  · exact ⟨.error (.fault f.text), rfl, rfl⟩
  · exact ⟨.ok build, rfl, rfl⟩

theorem decided_gatherDirectly (slot : UInt32) (request : Request) :
    Decided (gatherDirectly slot request) :=
  decided_bind (decided_readAllDirectly slot _) fun _ =>
    decided_bind decided_buildProperties fun _ => decided_pure _

/-- **The exchanges of a collection decide its result.** -/
theorem decided_collectParams (slot : UInt32) (request : Request) :
    Decided (collectParams slot request) := by
  rw [collectParams_eq, collectDirectly]
  by_cases h : request.requiresTelephony
  · rw [if_pos h]
    exact decided_bind decided_requireTelephony fun _ => decided_gatherDirectly slot request
  · rw [if_neg h]
    exact decided_gatherDirectly slot request

/-! ### Courses -/

/-- A reply of the decoder fails as the result that is made of it. -/
theorem failureOf_ofDecoder (stream : Bytes)
    (reply : Except Fault (Except DecodeError (List Certificate))) :
    (Query.decode stream).failure? reply = failureOf (ofDecoder reply) := by
  rcases reply with f | cause | certificates
  · rfl
  · rfl
  show (countError? .tooFewCertificates certificates).map Failure.error = _
  by_cases h : certificates.length < ChainFault.minLength
  · rw [countError?, if_pos h, ofDecoder_of_lt h]
    rfl
  · rw [countError?, if_neg h, ofDecoder_of_le (Nat.le_of_not_lt h)]
    rfl

variable (key : String) (params : AuthorizationSet)

/-- Work is decided by its exchanges. -/
theorem Work.decides (work : Work) :
    Decides (Step.exchanges (work.steps key params)) work.result := by
  have generated (made : KeyCharacteristics) :
      Decides [⟨.generateKey key temporaryKeyParams, .ok (.ok made)⟩]
        (.ok () : Except Failure Unit) := decides_singleton rfl
  cases work with
  | generateFault f => exact decides_singleton rfl
  | generateRefused code => exact decides_singleton rfl
  | attestFault made f => exact (generated made).append (decides_singleton rfl)
  | attestRefused made code => exact (generated made).append (decides_singleton rfl)
  | tooFew made entries few =>
    refine (generated made).append (decides_singleton ?_)
    exact congrArg (Option.map Failure.error) (if_pos few)
  | decoded made entries enough reply =>
    have attested : Decides [⟨.attestKey key params, .ok (.ok entries)⟩]
        (.ok () : Except Failure Unit) :=
      decides_singleton (congrArg (Option.map Failure.error) (if_neg enough))
    rw [Work.exchanges_decoded]
    exact (generated made).append (attested.append (decides_singleton (failureOf_ofDecoder _ _)))

namespace Course

/-- The exchanges of a course up to the stage that fails. -/
def stages : Course → List Exchange
  | clearFault f   => [⟨.deleteKey key, .error f⟩]
  | refused        => [⟨.deleteKey key, .ok false⟩]
  | cleared work _ => ⟨.deleteKey key, .ok true⟩ :: Step.exchanges (work.steps key params)

/-- The last deletion of a course, if it has a second one. -/
def lastDeletion : Course → List Exchange
  | clearFault _   => []
  | refused        => []
  | cleared _ last => [⟨.deleteKey key, last⟩]

/-- The result of a course by its stages alone. -/
def verdict : Course → Except Failure Chain
  | clearFault f   => .error (.fault f.text)
  | refused        => .error (.error (.temporaryKeyRemoval key))
  | cleared work _ => work.result

theorem exchanges_steps (course : Course) :
    Step.exchanges (course.steps key params) =
      course.stages key params ++ course.lastDeletion key := by
  cases course with
  | clearFault f => rfl
  | refused => rfl
  | cleared work last => exact exchanges_cleared key params work last

/-- **A course is decided by its stages**, whatever the last deletion. -/
theorem decides (course : Course) : Decides (course.stages key params) (course.verdict key) := by
  cases course with
  | clearFault f => exact decides_singleton rfl
  | refused => exact decides_singleton rfl
  | cleared work last =>
    have cleared : Decides [⟨.deleteKey key, .ok true⟩] (.ok () : Except Failure Unit) :=
      decides_singleton rfl
    exact cleared.append (work.decides key params)

variable {key}

/-- An error that a course ends in is its verdict: a last deletion that breaks off leaves none. -/
theorem verdict_of_result_error {course : Course} {cause : AttestationError}
    (h : course.result key = .error (.error cause)) :
    course.verdict key = .error (.error cause) := by
  cases course with
  | clearFault f => exact h
  | refused => exact h
  | cleared work last =>
    cases last with
    | ok consent => exact (Attempt.afterCleanUp_ok work.result consent).symm.trans h
    | error f =>
      rcases Attempt.afterCleanUp_error work.result f with h' | h'
      · cases h'.symm.trans h
      · cases h'.symm.trans h

end Course

end Attest

end DeviceAttest
