import DeviceAttest.Proofs.Call.Form

/-!
# The life of a temporary key

The exchanges of a call with keystore and decoder take one of five forms: none at all, or one of
the four of `Lifecycle`.  A call whose collection ends without parameters has none
(`attest_lifecycle`); every other one has those of a `Lifecycle` under the alias it drew and with
the parameters it collected.  Once a key may have been generated, the last question of the call is
the deletion of that key, and there is no other deletion in between.
-/

namespace DeviceAttest

open Program

/-- A question with its reply. -/
abbrev Exchange : Type := (q : Query) × q.Reply

/-- The exchange of a step that asks a collaborator. -/
def Step.exchange? : Step → Option Exchange
  | .call q reply => some ⟨q, reply⟩
  | _             => none

/-- The exchanges among some steps, in order. -/
def Step.exchanges (steps : List Step) : List Exchange := steps.filterMap Step.exchange?

namespace Run

variable {σ α : Type}

/-- The exchanges of a run, in order. -/
def exchanges (r : Run σ α) : List Exchange := Step.exchanges r.steps

/-- The exchanges of a run with the keystore and the decoder, in order. -/
def keyExchanges (r : Run σ α) : List Exchange := r.exchanges.filter fun x => !x.1.ofSource

end Run

/-- The exchanges of a call with keystore and decoder, under its alias and with the collected
parameters. -/
inductive Lifecycle (key : String) (params : AuthorizationSet) : List Exchange → Prop where
  /-- The keystore does not clear the alias: it refuses to or breaks off. -/
  | refused (reply : Except Fault Bool) (unconsented : reply ≠ .ok true) :
      Lifecycle key params [⟨.deleteKey key, reply⟩]
  /-- The generation is refused or breaks off. -/
  | ungenerated (reply : Except Fault (Except StatusCode KeyCharacteristics))
      (failed : ∀ made, reply ≠ .ok (.ok made)) (last : Except Fault Bool) :
      Lifecycle key params
        [⟨.deleteKey key, .ok true⟩, ⟨.generateKey key Attest.temporaryKeyParams, reply⟩,
         ⟨.deleteKey key, last⟩]
  /-- The attestation is refused, breaks off or gives too few entries. -/
  | undecoded (made : KeyCharacteristics) (reply : Except Fault (Except StatusCode (List Bytes)))
      (failed : ∀ entries, reply = .ok (.ok entries) → entries.length < 2)
      (last : Except Fault Bool) :
      Lifecycle key params
        [⟨.deleteKey key, .ok true⟩, ⟨.generateKey key Attest.temporaryKeyParams, .ok (.ok made)⟩,
         ⟨.attestKey key params, reply⟩, ⟨.deleteKey key, last⟩]
  /-- The decoder is asked for the certificates of the entries. -/
  | decoded (made : KeyCharacteristics) (entries : List Bytes)
      (enough : 2 ≤ entries.length)
      (reply : Except Fault (Except DecodeError (List Certificate))) (last : Except Fault Bool) :
      Lifecycle key params
        [⟨.deleteKey key, .ok true⟩, ⟨.generateKey key Attest.temporaryKeyParams, .ok (.ok made)⟩,
         ⟨.attestKey key params, .ok (.ok entries)⟩, ⟨.decode entries.flatten, reply⟩,
         ⟨.deleteKey key, last⟩]

/-! ### Exchanges of steps -/

theorem exchanges_append (front back : List Step) :
    Step.exchanges (front ++ back) = Step.exchanges front ++ Step.exchanges back :=
  List.filterMap_append

/-- The queries are those of the exchanges. -/
theorem queries_eq_map_exchanges (steps : List Step) :
    Step.queries steps = (Step.exchanges steps).map Sigma.fst := by
  induction steps with
  | nil => rfl
  | cons step steps ih =>
    cases step with
    | call q reply => exact congrArg (q :: ·) ih
    | drew number => exact ih
    | event e => exact ih

/-- Steps that ask the source exchange nothing with keystore and decoder. -/
theorem ofSource_of_mem_exchanges {steps : List Step} (h : ∀ step ∈ steps, step.OfSource)
    {x : Exchange} (hx : x ∈ Step.exchanges steps) : x.1.ofSource := by
  obtain ⟨step, hs, hx⟩ := List.mem_filterMap.mp hx
  have hsource := h step hs
  cases step with
  | call q reply =>
    cases hx
    exact hsource
  | drew number => exact hsource.elim
  | event e => exact hsource.elim

theorem exchanges_completion (key : String) (r : Except Failure Chain) :
    Step.exchanges (Attest.Work.completion key r) = [] := by
  cases r with
  | error f => rfl
  | ok chain => rfl

/-- The exchanges of work that reaches the decoder: what is reported of a chain is none. -/
theorem Attest.Work.exchanges_decoded (key : String) (params : AuthorizationSet)
    (made : KeyCharacteristics) (entries : List Bytes)
    (enough : ¬ entries.length < ChainFault.minLength)
    (reply : Except Fault (Except DecodeError (List Certificate))) :
    Step.exchanges ((Work.decoded made entries enough reply).steps key params) =
      [⟨.generateKey key temporaryKeyParams, .ok (.ok made)⟩,
       ⟨.attestKey key params, .ok (.ok entries)⟩, ⟨.decode entries.flatten, reply⟩] := by
  rw [Work.steps, exchanges_append]
  exact congrArg (fun xs => _ :: _ :: _ :: xs) (exchanges_completion key (ofDecoder reply))

/-- What is reported of the last deletion is no exchange. -/
theorem Attest.Course.exchanges_release (key : String) (last : Except Fault Bool) :
    Step.exchanges (release key last) = [⟨.deleteKey key, last⟩] := by
  rcases last with f | _ | _ <;> rfl

/-- After work comes the last deletion. -/
theorem Attest.Course.exchanges_cleared (key : String) (params : AuthorizationSet) (work : Work)
    (last : Except Fault Bool) :
    Step.exchanges ((cleared work last).steps key params) =
      ⟨.deleteKey key, .ok true⟩ ::
        (Step.exchanges (work.steps key params) ++ [⟨.deleteKey key, last⟩]) := by
  show ⟨.deleteKey key, .ok true⟩ ::
    Step.exchanges (work.steps key params ++ release key last) = _
  rw [exchanges_append, exchanges_release]

/-- The exchanges of a course are those of a lifecycle. -/
theorem lifecycle_course (key : String) (params : AuthorizationSet) (course : Attest.Course) :
    Lifecycle key params (Step.exchanges (course.steps key params)) := by
  cases course with
  | clearFault f => exact .refused (.error f) nofun
  | refused => exact .refused (.ok false) nofun
  | cleared work last =>
    rw [Attest.Course.exchanges_cleared]
    cases work with
    | generateFault f => exact .ungenerated (.error f) nofun last
    | generateRefused code => exact .ungenerated (.ok (.error code)) nofun last
    | attestFault made f => exact .undecoded made (.error f) nofun last
    | attestRefused made code => exact .undecoded made (.ok (.error code)) nofun last
    | tooFew made entries few =>
      refine .undecoded made (.ok (.ok entries)) (fun _ h => ?_) last
      cases h
      exact few
    | decoded made entries enough reply =>
      rw [Attest.Work.exchanges_decoded]
      exact .decoded made entries (Nat.le_of_not_lt enough) reply last

/-! ### Whole calls -/

namespace Lifecycle

variable {key : String} {params : AuthorizationSet} {life : List Exchange}

theorem ofSource_eq_false (h : Lifecycle key params life) : ∀ x ∈ life, x.1.ofSource = false := by
  cases h with
  | refused reply unconsented => exact List.forall_mem_singleton.mpr rfl
  | ungenerated reply failed last =>
    simp only [List.forall_mem_cons]
    exact ⟨rfl, rfl, rfl, fun x hx => absurd hx List.not_mem_nil⟩
  | undecoded made reply failed last =>
    simp only [List.forall_mem_cons]
    exact ⟨rfl, rfl, rfl, rfl, fun x hx => absurd hx List.not_mem_nil⟩
  | decoded made entries enough reply last =>
    simp only [List.forall_mem_cons]
    exact ⟨rfl, rfl, rfl, rfl, rfl, fun x hx => absurd hx List.not_mem_nil⟩

/-- After a generation there is exactly one deletion, and it comes last. -/
theorem last_deletion (h : Lifecycle key params life) {k : String} {ps : AuthorizationSet}
    (hg : .generateKey k ps ∈ life.map Sigma.fst) :
    ∃ between, life.map Sigma.fst = .deleteKey key ::
        .generateKey key Attest.temporaryKeyParams :: (between ++ [.deleteKey key]) ∧
      ∀ k, .deleteKey k ∉ between := by
  cases h with
  | refused reply unconsented => simp at hg
  | ungenerated reply failed last => exact ⟨[], rfl, by simp⟩
  | undecoded made reply failed last => exact ⟨[.attestKey key params], rfl, by simp⟩
  | decoded made entries enough reply last =>
    exact ⟨[.attestKey key params, .decode entries.flatten], rfl, by simp⟩

end Lifecycle

section Whole

variable {σ : Type} (c : Collaborators σ) (process : ProcessLabel) (settings : AttestationSettings)
  (request : Request) (s : σ) (n : AliasSequence)

/-- A call without parameters ends with its collection. -/
theorem steps_attest_error {failure : Failure}
    (hv : ((Attest.collectParams settings.imeiSlot request).run.run c s n).value =
      .error failure) :
    let call := (attest process settings request).run.run c s n
    call.steps = ((Attest.collectParams settings.imeiSlot request).run.run c s n).steps ∧
      call.value = .error failure := by
  intro call
  have hcall : call = _ :=
    (congrArg (fun p => p.run c s n) (attest_run process settings request)).trans
      (run_bind c _ _ s n)
  rw [hv] at hcall
  rw [hcall]
  exact ⟨List.append_nil _, rfl⟩

/-- A call with parameters draws the next number after its collection and goes on under its
alias. -/
theorem run_attest_ok {params : AuthorizationSet}
    (hv : ((Attest.collectParams settings.imeiSlot request).run.run c s n).value = .ok params) :
    let collected := (Attest.collectParams settings.imeiSlot request).run.run c s n
    (attest process settings request).run.run c s n =
      ((Attest.underKey (aliasText process settings n.next) params).run.run c collected.state
        n.advance).afterAll (collected.steps ++ [.drew n.next]) := by
  have hseq : ((Attest.collectParams settings.imeiSlot request).run.run c s n).sequence = n := by
    rw [sequence_run]
    exact after_of_quiet (fun step hs =>
      (Attest.always_collectParams _ _ _ _ (path_run c _ s n) step hs).quiet) n
  rw [attest_run, run_bind, hv, hseq]
  simp only [Run.afterAll, run, Run.after, List.append_assoc, List.singleton_append]

/-- Under its alias a call goes through a course. -/
theorem steps_attest_ok {params : AuthorizationSet}
    (hv : ((Attest.collectParams settings.imeiSlot request).run.run c s n).value = .ok params) :
    let call := (attest process settings request).run.run c s n
    ∃ course : Attest.Course,
      call.steps = ((Attest.collectParams settings.imeiSlot request).run.run c s n).steps ++
        .drew n.next :: course.steps (aliasText process settings n.next) params ∧
      call.value = course.result (aliasText process settings n.next) := by
  intro call
  have hcall : call = _ := run_attest_ok c process settings request s n hv
  obtain ⟨course, hsteps, hvalue⟩ := Attest.path_underKey.mp
    (path_run c (Attest.underKey (aliasText process settings n.next) params).run
      ((Attest.collectParams settings.imeiSlot request).run.run c s n).state n.advance)
  refine ⟨course, ?_, ?_⟩
  · rw [hcall, ← hsteps]
    exact List.append_assoc ..
  · rw [hcall, ← hvalue]
    rfl

end Whole

/-- Apart from what goes to the source, a run exchanges what follows its questions to it. -/
theorem keyExchanges_eq {σ α : Type} {r : Run σ α} {early life : List Exchange}
    (h : r.exchanges = early ++ life) (hearly : ∀ x ∈ early, x.1.ofSource)
    (hlife : ∀ x ∈ life, x.1.ofSource = false) : r.keyExchanges = life := by
  have h₁ : early.filter (fun x => !x.1.ofSource) = [] :=
    List.filter_eq_nil_iff.mpr fun x hx => by simp [hearly x hx]
  have h₂ : life.filter (fun x => !x.1.ofSource) = life :=
    List.filter_eq_self.mpr fun x hx => by simp [hlife x hx]
  rw [Run.keyExchanges, h, List.filter_append, h₁, h₂, List.nil_append]

/-- **The life of a temporary key.**  Whatever the collaborators reply, a call first asks the
source alone.  If that gives no parameters the call ends with the same failure and has asked
keystore and decoder nothing; otherwise its exchanges with them are those of a lifecycle under its
alias, with the collected parameters.  If a generation is among the queries of the call, the last
of all is the deletion of that key, and the only one after the generation. -/
theorem attest_lifecycle {σ : Type} (c : Collaborators σ) (process : ProcessLabel)
    (settings : AttestationSettings) (request : Request) (s : σ) (n : AliasSequence) :
    let collected := (Attest.collectParams settings.imeiSlot request).run.run c s n
    let call := (attest process settings request).run.run c s n
    let key := aliasText process settings n.next
    call.exchanges = collected.exchanges ++ call.keyExchanges ∧
      (∀ x ∈ collected.exchanges, x.1.ofSource) ∧
      (match collected.value with
        | .error failure => call.keyExchanges = [] ∧ call.value = .error failure
        | .ok params     => Lifecycle key params call.keyExchanges) ∧
      ∀ k ps, .generateKey k ps ∈ call.queries →
        ∃ before between, call.queries =
            before ++ .generateKey key Attest.temporaryKeyParams ::
              (between ++ [.deleteKey key]) ∧
          ∀ k, .deleteKey k ∉ between := by
  intro collected call key
  have hsource : ∀ x ∈ collected.exchanges, x.1.ofSource := fun x hx =>
    ofSource_of_mem_exchanges (Attest.always_collectParams _ _ _ _ (path_run c _ s n)) hx
  have hqueries (r : Run σ (Except Failure Chain)) : r.queries = r.exchanges.map Sigma.fst :=
    queries_eq_map_exchanges r.steps
  have hasked {k : String} {ps : AuthorizationSet} :
      .generateKey k ps ∉ collected.exchanges.map Sigma.fst := fun hmem => by
    obtain ⟨x, hx, hq⟩ := List.mem_map.mp hmem
    have hofSource : x.1.ofSource = true := hsource x hx
    rw [hq] at hofSource
    exact absurd hofSource Bool.false_ne_true
  -- by what the collection gives: the call ends with it, or goes on under an alias
  cases hv : collected.value with
  | error failure =>
    obtain ⟨hsteps, hvalue⟩ := steps_attest_error c process settings request s n hv
    have hex : call.exchanges = collected.exchanges := congrArg Step.exchanges hsteps
    have hkey : call.keyExchanges = [] :=
      keyExchanges_eq (hex.trans (List.append_nil _).symm) hsource fun x hx =>
        absurd hx List.not_mem_nil
    refine ⟨by rw [hkey, List.append_nil, hex], hsource, ⟨hkey, hvalue⟩, fun k ps hg => ?_⟩
    rw [hqueries, hex] at hg
    exact absurd hg hasked
  | ok params =>
    obtain ⟨course, hcourse, -⟩ := steps_attest_ok c process settings request s n hv
    have hlife : Lifecycle key params (Step.exchanges (course.steps key params)) :=
      lifecycle_course key params course
    have hex : call.exchanges =
        collected.exchanges ++ Step.exchanges (course.steps key params) :=
      (congrArg Step.exchanges hcourse).trans (exchanges_append _ _)
    have hkey : call.keyExchanges = Step.exchanges (course.steps key params) :=
      keyExchanges_eq hex hsource hlife.ofSource_eq_false
    refine ⟨by rw [hkey, hex], hsource, by rwa [hkey], fun k ps hg => ?_⟩
    rw [hqueries, hex, List.map_append] at hg ⊢
    obtain ⟨between, hmap, hbetween⟩ :=
      hlife.last_deletion ((List.mem_append.mp hg).resolve_left hasked)
    -- before the generation there is the collection and the first deletion
    refine ⟨collected.exchanges.map Sigma.fst ++ [.deleteKey key], between, ?_, hbetween⟩
    rw [hmap, List.append_assoc]
    rfl

end DeviceAttest
