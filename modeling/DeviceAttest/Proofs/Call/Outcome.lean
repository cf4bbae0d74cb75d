import DeviceAttest.Call.Scripted
import DeviceAttest.Proofs.Call.Stages

/-!
# The outcome of a call

What a call comes to is decided by its stages up to the first that fails, and the last deletion is
no stage: the exchanges before it are the `decisive` ones.  If the last deletion is answered at all
(`Run.CleansUp`) they decide the result of the call, and collaborators that agree on them give the
same result, whatever they answer to the last deletion and whatever the characteristics of the key
that they generate (`attest_decided`).
-/

namespace DeviceAttest

open Program

/-! ### Decisive exchanges -/

/-- Whether a question asks for a key. -/
def Query.generates : Query → Bool
  | generateKey _ _ => true
  | _               => false

/-- The exchanges of a run but for the last deletion, which comes once a key was asked for. -/
def Run.decisive {σ α : Type} (r : Run σ α) : List Exchange :=
  if r.exchanges.any fun x => x.1.generates then r.exchanges.dropLast else r.exchanges

/-- The last deletion of a run does not break off. -/
def Run.CleansUp {σ α : Type} (r : Run σ α) : Prop :=
  ∀ key f, r.exchanges ≠ r.decisive ++ [⟨.deleteKey key, .error f⟩]

/-- A run cleans up if its last exchange is a deletion that is answered. -/
theorem Run.cleansUp_of_getLast? {σ α : Type} {r : Run σ α} {key : String} {consent : Bool}
    (h : r.exchanges.getLast? = some ⟨.deleteKey key, .ok consent⟩) : r.CleansUp := by
  intro key' f hbroken
  rw [hbroken, List.getLast?_concat] at h
  cases h

/-- The source is not asked for keys. -/
theorem any_generates_eq_false {xs : List Exchange} (h : ∀ x ∈ xs, x.1.ofSource) :
    (xs.any fun x => x.1.generates) = false := by
  rw [List.any_eq_false]
  rintro ⟨q, reply⟩ hx
  have hsource : q.ofSource := h _ hx
  cases q with
  | generateKey key params => cases hsource
  | _ => exact Bool.false_ne_true

namespace Attest

variable (key : String) (params : AuthorizationSet)

theorem Work.any_generates (work : Work) :
    ((Step.exchanges (work.steps key params)).any fun x => x.1.generates) = true := by
  obtain ⟨reply, later, hsteps, -⟩ := work.steps_eq_generate key params
  rw [hsteps]
  rfl

/-- After a collection, the decisive exchanges of a course are its stages. -/
theorem Course.decisive_eq {σ α : Type} {r : Run σ α} {early : List Exchange} (course : Course)
    (hearly : ∀ x ∈ early, x.1.ofSource)
    (h : r.exchanges = early ++ Step.exchanges (course.steps key params)) :
    r.decisive = early ++ course.stages key params := by
  have hnone := any_generates_eq_false hearly
  rw [course.exchanges_steps, ← List.append_assoc] at h
  rw [Run.decisive, h]
  cases course with
  | clearFault f | refused =>
    rw [lastDeletion, List.append_nil, List.any_append, hnone]
    exact if_neg Bool.false_ne_true
  | cleared work last =>
    have hsome : ((early ++ stages key params (cleared work last) ++
        lastDeletion key (cleared work last)).any fun x => x.1.generates) = true := by
      rw [List.any_append, List.any_append, stages, List.any_cons, work.any_generates]
      simp
    rw [if_pos hsome, lastDeletion, List.dropLast_concat]

end Attest

/-! ### Collaborators that agree -/

/-- A reply is like another: the same, but for the characteristics of a generated key. -/
def Query.Alike : (q : Query) → q.Reply → q.Reply → Prop
  | generateKey _ _, .ok (.ok _), reply => ∃ made, reply = .ok (.ok made)
  | _,               reply,       reply' => reply' = reply

namespace Collaborators

variable {σ : Type} {c : Collaborators σ} {s : σ}

/-- The collaborators agree with exchanges: asked the same, they reply alike. -/
def Agrees (c : Collaborators σ) : σ → List Exchange → Prop
  | _, []                => True
  | s, ⟨q, reply⟩ :: xs  => q.Alike reply (c.reply q s).1 ∧ c.Agrees (c.reply q s).2 xs

theorem agrees_append {front back : List Exchange} :
    c.Agrees s (front ++ back) ↔
      c.Agrees s front ∧ c.Agrees (c.after s (front.map Sigma.fst)) back := by
  induction front generalizing s with
  | nil => exact ⟨fun h => ⟨trivial, h⟩, And.right⟩
  | cons x front ih => exact (and_congr_right' ih).trans and_assoc.symm

/-- Of a source, replies alike are the same. -/
theorem Agrees.answers {steps : List Step} (hsource : ∀ step ∈ steps, step.OfSource)
    (h : c.Agrees s (Step.exchanges steps)) : c.Answers s steps := by
  induction steps generalizing s with
  | nil => trivial
  | cons step steps ih =>
    have hfirst : step.OfSource := hsource step List.mem_cons_self
    have hlater : ∀ step ∈ steps, step.OfSource := fun step hs =>
      hsource step (List.mem_cons_of_mem _ hs)
    cases step with
    | drew number => exact hfirst.elim
    | event e => exact hfirst.elim
    | call q reply =>
      obtain ⟨halike, hagrees⟩ := h
      refine ⟨?_, ih hlater hagrees⟩
      cases q with
      | telephony => exact halike
      | serial => exact halike
      | imei slot => exact halike
      | meid => exact halike
      | buildProperties => exact halike
      | _ => cases hfirst

end Collaborators

namespace Attest

variable {σ : Type} {c : Collaborators σ} {s : σ} {key : String} {params : AuthorizationSet}

theorem answers_completion (r : Except Failure Chain) : c.Answers s (Work.completion key r) := by
  cases r with
  | error f => trivial
  | ok chain => trivial

/-- Collaborators that agree with work do work of the same result. -/
theorem Work.exists_alike {work : Work}
    (h : c.Agrees s (Step.exchanges (work.steps key params))) :
    ∃ work' : Work, c.Answers s (work'.steps key params) ∧ work'.result = work.result := by
  cases work with
  | generateFault f => exact ⟨.generateFault f, ⟨h.1, trivial⟩, rfl⟩
  | generateRefused code => exact ⟨.generateRefused code, ⟨h.1, trivial⟩, rfl⟩
  | attestFault made f =>
    obtain ⟨⟨made', hmade⟩, hreply, -⟩ := h
    exact ⟨.attestFault made' f, ⟨hmade, hreply, trivial⟩, rfl⟩
  | attestRefused made code =>
    obtain ⟨⟨made', hmade⟩, hreply, -⟩ := h
    exact ⟨.attestRefused made' code, ⟨hmade, hreply, trivial⟩, rfl⟩
  | tooFew made entries few =>
    obtain ⟨⟨made', hmade⟩, hreply, -⟩ := h
    exact ⟨.tooFew made' entries few, ⟨hmade, hreply, trivial⟩, rfl⟩
  | decoded made entries enough reply =>
    rw [exchanges_decoded] at h
    obtain ⟨⟨made', hmade⟩, hreply, hdecoded, -⟩ := h
    exact ⟨.decoded made' entries enough reply,
      ⟨hmade, hreply, hdecoded, answers_completion _⟩, rfl⟩

/-- What is reported of a last deletion needs no answer. -/
theorem Course.answers_release {last : Except Fault Bool}
    (h : (c.reply (.deleteKey key) s).1 = last) : c.Answers s (release key last) := by
  rcases last with f | _ | _
  · exact ⟨h, trivial⟩
  · exact ⟨h, trivial⟩
  · exact ⟨h, trivial⟩

/-- Whatever is replied to the last deletion, work that follows a first one makes a course. -/
theorem Course.exists_cleared {work : Work} (hcleared : (c.reply (.deleteKey key) s).1 = .ok true)
    (hwork : c.Answers (c.reply (.deleteKey key) s).2 (work.steps key params)) :
    ∃ last, c.Answers s ((cleared work last).steps key params) :=
  ⟨_, hcleared, (c.answers_append _ _ _).mpr ⟨hwork, answers_release rfl⟩⟩

/-- Collaborators that agree with the stages of a course go through one of the same verdict. -/
theorem Course.exists_alike {course : Course} (h : c.Agrees s (course.stages key params)) :
    ∃ course' : Course,
      c.Answers s (course'.steps key params) ∧ course'.verdict key = course.verdict key := by
  cases course with
  | clearFault f => exact ⟨.clearFault f, ⟨h.1, trivial⟩, rfl⟩
  | refused => exact ⟨.refused, ⟨h.1, trivial⟩, rfl⟩
  | cleared work last =>
    obtain ⟨hcleared, hwork⟩ := h
    obtain ⟨work', hanswers, hresult⟩ := Work.exists_alike hwork
    obtain ⟨last', hcourse⟩ := exists_cleared hcleared hanswers
    exact ⟨.cleared work' last', hcourse, hresult⟩

/-- Under an alias a call goes through the course that its collaborators take. -/
theorem run_underKey_of_answers {course : Course}
    (h : c.Answers s (course.steps key params)) (n : AliasSequence) :
    let run := (underKey key params).run.run c s n
    run.steps = course.steps key params ∧ run.value = course.result key := by
  intro run
  have hpath : Path (underKey key params).run (course.steps key params) (course.result key) :=
    path_underKey.mpr ⟨course, rfl, rfl⟩
  have hrun : run = _ :=
    run_eq_of_leads c hpath h (AliasSequence.gives_of_numbers (.inl (numbers_course ..)))
  rw [hrun]
  exact ⟨List.append_nil _, rfl⟩

/-! ### The last deletion -/

/-- A last deletion that is answered has no part in the result. -/
theorem Course.result_eq_verdict {course : Course}
    (h : ∀ f, course.lastDeletion key ≠ [⟨.deleteKey key, .error f⟩]) :
    course.result key = course.verdict key := by
  cases course with
  | clearFault f => rfl
  | refused => rfl
  | cleared work last =>
    cases last with
    | ok consent => exact Attempt.afterCleanUp_ok work.result consent
    | error f => exact absurd rfl (h f)

/-- A last deletion that breaks off is the end of its call or of the whole process. -/
theorem Course.answered_of_result {course : Course}
    (hfault : ∀ text, course.result key ≠ .error (.fault text))
    (haborted : course.result key ≠ .error .aborted) (f : Fault) :
    course.lastDeletion key ≠ [⟨.deleteKey key, .error f⟩] := by
  cases course with
  | clearFault f => exact nofun
  | refused => exact nofun
  | cleared work last =>
    intro hlast
    obtain rfl : last = .error f := by
      cases hlast
      rfl
    rcases Attempt.afterCleanUp_error (β := Bool) work.result f with h | h
    · exact hfault _ h
    · exact haborted h

/-! ### Success -/

theorem ofDecoder_eq_ok_iff {reply : Except Fault (Except DecodeError (List Certificate))}
    {chain : Chain} : ofDecoder reply = .ok chain ↔ reply = .ok (.ok chain.toList) := by
  rcases reply with f | cause | certificates
  · simp [ofDecoder]
  · simp [ofDecoder]
  · by_cases h : ChainFault.minLength ≤ certificates.length
    · rw [ofDecoder_of_le h]
      constructor
      · intro heq
        obtain rfl := Except.ok.inj heq
        rfl
      · intro heq
        obtain rfl : certificates = chain.certificates := Except.ok.inj (Except.ok.inj heq)
        rfl
    · rw [ofDecoder_of_lt (Nat.lt_of_not_le h)]
      constructor
      · intro heq
        cases heq
      · intro heq
        obtain rfl : certificates = chain.certificates := Except.ok.inj (Except.ok.inj heq)
        exact absurd chain.two_le_length h

/-- The stages of a course give a chain if every one of them succeeds. -/
theorem Course.verdict_eq_ok_iff {course : Course} {chain : Chain} :
    course.verdict key = .ok chain ↔ ∃ made entries enough last,
      course = .cleared (.decoded made entries enough (.ok (.ok chain.toList))) last := by
  constructor
  · intro h
    cases course with
    | clearFault f => cases h
    | refused => cases h
    | cleared work last =>
      cases work with
      | decoded made entries enough reply =>
        obtain rfl := ofDecoder_eq_ok_iff.mp h
        exact ⟨made, entries, enough, last, rfl⟩
      | _ => cases h
  · rintro ⟨made, entries, enough, last, rfl⟩
    exact ofDecoder_eq_ok_iff.mpr rfl

end Attest

/-! ### Whole calls -/

section Whole

variable {σ : Type} (c : Collaborators σ) (process : ProcessLabel) (settings : AttestationSettings)
  (request : Request) (s : σ) (n : AliasSequence)

/-- The collection asks only the source. -/
theorem ofSource_of_mem_collected :
    ∀ x ∈ ((Attest.collectParams settings.imeiSlot request).run.run c s n).exchanges,
      x.1.ofSource := fun _ hx =>
  ofSource_of_mem_exchanges (Attest.always_collectParams _ _ _ _ (path_run c _ s n)) hx

/-- A call without parameters has the exchanges of its collection, and all are decisive. -/
theorem decisive_attest_error {failure : Failure}
    (hv : ((Attest.collectParams settings.imeiSlot request).run.run c s n).value =
      .error failure) :
    let collected := (Attest.collectParams settings.imeiSlot request).run.run c s n
    let call := (attest process settings request).run.run c s n
    call.decisive = collected.exchanges ∧ call.exchanges = collected.exchanges ∧
      call.value = .error failure := by
  intro collected call
  obtain ⟨hsteps, hvalue⟩ := steps_attest_error c process settings request s n hv
  have hex : call.exchanges = collected.exchanges := congrArg Step.exchanges hsteps
  refine ⟨?_, hex, hvalue⟩
  rw [Run.decisive, hex, any_generates_eq_false (ofSource_of_mem_collected c settings request s n)]
  exact if_neg Bool.false_ne_true

/-- A call with parameters goes through a course as its collaborators reply, and the stages of that
are decisive. -/
theorem decisive_attest_ok {params : AuthorizationSet}
    (hv : ((Attest.collectParams settings.imeiSlot request).run.run c s n).value = .ok params) :
    let collected := (Attest.collectParams settings.imeiSlot request).run.run c s n
    let call := (attest process settings request).run.run c s n
    let key := aliasText process settings n.next
    ∃ course : Attest.Course,
      call.decisive = collected.exchanges ++ course.stages key params ∧
      call.exchanges = call.decisive ++ course.lastDeletion key ∧
      c.Answers collected.state (course.steps key params) ∧ call.value = course.result key := by
  intro collected call key
  have hcall : call = _ := run_attest_ok c process settings request s n hv
  let under := (Attest.underKey key params).run.run c collected.state n.advance
  obtain ⟨course, hsteps, hvalue⟩ := Attest.path_underKey.mp
    (path_run c (Attest.underKey key params).run collected.state n.advance)
  have hex : call.exchanges = collected.exchanges ++ Step.exchanges (course.steps key params) := by
    rw [hcall, ← hsteps]
    show Step.exchanges ((collected.steps ++ [.drew n.next]) ++ under.steps) = _
    rw [exchanges_append, exchanges_append]
    exact congrArg (· ++ _) (List.append_nil _)
  have hdecisive := course.decisive_eq key params
    (ofSource_of_mem_collected c settings request s n) hex
  refine ⟨course, hdecisive, ?_, ?_, ?_⟩
  · rw [hdecisive, hex, course.exchanges_steps, List.append_assoc]
  · rw [← hsteps]
    exact answers_run c _ _ _
  · rw [hcall, ← hvalue]
    rfl

/-- Collaborators that agree with a collection collect the same. -/
theorem collected_of_agrees {σ' : Type} {c' : Collaborators σ'} {s' : σ'}
    (h : c'.Agrees s'
      ((Attest.collectParams settings.imeiSlot request).run.run c s n).exchanges) :
    let collected := (Attest.collectParams settings.imeiSlot request).run.run c s n
    let collected' := (Attest.collectParams settings.imeiSlot request).run.run c' s' n
    collected'.value = collected.value ∧
      collected'.state = c'.after s' (collected.exchanges.map Sigma.fst) := by
  intro collected collected'
  have hpath := path_run c (Attest.collectParams settings.imeiSlot request).run s n
  have hsource := Attest.always_collectParams _ _ _ _ hpath
  have hrun : collected' = _ := run_eq_of_leads c' hpath (h.answers hsource)
    (gives_run c (Attest.collectParams settings.imeiSlot request).run s n)
  rw [hrun]
  refine ⟨rfl, ?_⟩
  rw [Run.exchanges, ← queries_eq_map_exchanges]
  rfl

/-- A call with parameters goes through the course that its collaborators take. -/
theorem exchanges_attest_of_answers {params : AuthorizationSet} {course : Attest.Course}
    (hv : ((Attest.collectParams settings.imeiSlot request).run.run c s n).value = .ok params)
    (h : c.Answers ((Attest.collectParams settings.imeiSlot request).run.run c s n).state
      (course.steps (aliasText process settings n.next) params)) :
    let call := (attest process settings request).run.run c s n
    let key := aliasText process settings n.next
    call.exchanges = call.decisive ++ course.lastDeletion key ∧ call.value = course.result key := by
  intro call key
  let collected := (Attest.collectParams settings.imeiSlot request).run.run c s n
  obtain ⟨hsteps, hvalue⟩ := Attest.run_underKey_of_answers h n.advance
  have hcall : call = _ := run_attest_ok c process settings request s n hv
  have hex : call.exchanges = collected.exchanges ++ Step.exchanges (course.steps key params) := by
    rw [hcall, Run.exchanges, Run.afterAll, hsteps, exchanges_append, exchanges_append]
    exact congrArg (· ++ _) (List.append_nil _)
  refine ⟨?_, hcall ▸ hvalue⟩
  rw [course.decisive_eq key params (ofSource_of_mem_collected c settings request s n) hex, hex,
    course.exchanges_steps, List.append_assoc]

/-- A call that cleans up comes to the verdict of its course. -/
theorem value_eq_verdict {course : Attest.Course} {run : Run σ (Except Failure Chain)}
    {key : String} (hex : run.exchanges = run.decisive ++ course.lastDeletion key)
    (hvalue : run.value = course.result key) (h : run.CleansUp) :
    run.value = course.verdict key :=
  hvalue.trans (Attest.Course.result_eq_verdict fun f hlast => h key f (hex.trans (hlast ▸ rfl)))

/-- A call that ends neither in a fault nor in an abort cleans up. -/
theorem cleansUp_attest :
    let call := (attest process settings request).run.run c s n
    (∀ text, call.value ≠ .error (.fault text)) → call.value ≠ .error .aborted →
      call.CleansUp := by
  intro call hfault haborted key f hbroken
  cases hv : ((Attest.collectParams settings.imeiSlot request).run.run c s n).value with
  | error failure =>
    obtain ⟨hdecisive, hex, -⟩ := decisive_attest_error c process settings request s n hv
    rw [hdecisive, hex, List.self_eq_append_right] at hbroken
    cases hbroken
  | ok params =>
    obtain ⟨course, -, hex, -, hvalue⟩ := decisive_attest_ok c process settings request s n hv
    rw [hvalue] at hfault haborted
    have hlast := List.append_cancel_left (hex.symm.trans hbroken)
    cases course with
    | clearFault f => cases hlast
    | refused => cases hlast
    | cleared work last =>
      obtain rfl : last = .error f := by
        cases hlast
        rfl
      exact Attest.Course.answered_of_result hfault haborted f rfl

/-- The decisive exchanges of a call that cleans up decide its result. -/
theorem decides_attest :
    let call := (attest process settings request).run.run c s n
    call.CleansUp → Decides call.decisive call.value := by
  intro call hclean
  have hcollected := Attest.decided_collectParams settings.imeiSlot request _ _ (path_run c _ s n)
  cases hv : ((Attest.collectParams settings.imeiSlot request).run.run c s n).value with
  | error failure =>
    obtain ⟨hdecisive, -, hvalue⟩ := decisive_attest_error c process settings request s n hv
    rw [hv] at hcollected
    rw [hdecisive, hvalue]
    exact hcollected
  | ok params =>
    obtain ⟨course, hdecisive, hex, -, hvalue⟩ :=
      decisive_attest_ok c process settings request s n hv
    have hverdict : call.value = _ := value_eq_verdict hex hvalue hclean
    rw [hv] at hcollected
    rw [hverdict, hdecisive]
    exact hcollected.append (course.decides _ params)

/-- **A call that cleans up gives a chain** exactly if every stage succeeds, and then the one that
is decoded. -/
theorem value_attest_eq_ok_iff {chain : Chain}
    (hclean : ((attest process settings request).run.run c s n).CleansUp) :
    let collected := (Attest.collectParams settings.imeiSlot request).run.run c s n
    let key := aliasText process settings n.next
    ((attest process settings request).run.run c s n).value = .ok chain ↔
      ∃ params made entries certificates,
        collected.value = .ok params ∧
        c.Answers collected.state
          [.call (.deleteKey key) (.ok true),
           .call (.generateKey key Attest.temporaryKeyParams) (.ok (.ok made)),
           .call (.attestKey key params) (.ok (.ok entries)),
           .call (.decode entries.flatten) (.ok (.ok certificates))] ∧
        2 ≤ entries.length ∧ 2 ≤ certificates.length ∧ chain.toList = certificates := by
  intro collected key
  constructor
  · intro h
    cases hv : collected.value with
    | error failure =>
      obtain ⟨-, -, hvalue⟩ := decisive_attest_error c process settings request s n hv
      cases h.symm.trans hvalue
    | ok params =>
      obtain ⟨course, -, hex, hanswers, hvalue⟩ :=
        decisive_attest_ok c process settings request s n hv
      obtain ⟨made, entries, enough, last, rfl⟩ :=
        Attest.Course.verdict_eq_ok_iff.mp ((value_eq_verdict hex hvalue hclean).symm.trans h)
      obtain ⟨hcleared, hlater⟩ := hanswers
      obtain ⟨⟨hmade, hentries, hdecoded, -⟩, -⟩ := (c.answers_append _ _ _).mp hlater
      exact ⟨params, made, entries, chain.toList, rfl,
        ⟨hcleared, hmade, hentries, hdecoded, trivial⟩, Nat.le_of_not_lt enough,
        chain.two_le_length, rfl⟩
  · rintro ⟨params, made, entries, certificates, hv,
      ⟨hcleared, hmade, hentries, hdecoded, -⟩, henough, -, rfl⟩
    let work : Attest.Work :=
      .decoded made entries (Nat.not_lt_of_le henough) (.ok (.ok chain.toList))
    have hwork : c.Answers (c.reply (.deleteKey key) collected.state).2 (work.steps key params) :=
      ⟨hmade, hentries, hdecoded, Attest.answers_completion _⟩
    obtain ⟨last, hcourse⟩ := Attest.Course.exists_cleared hcleared hwork
    obtain ⟨hex, hvalue⟩ := exchanges_attest_of_answers c process settings request s n hv hcourse
    rw [value_eq_verdict hex hvalue hclean]
    exact Attest.Course.verdict_eq_ok_iff.mpr ⟨made, entries, _, last, rfl⟩

/-- **Collaborators that agree up to the stage that fails give the same result**, if both clean
up. -/
theorem value_attest_of_agrees {σ' : Type} {c' : Collaborators σ'} {s' : σ'}
    (h : c'.Agrees s' ((attest process settings request).run.run c s n).decisive)
    (hclean : ((attest process settings request).run.run c s n).CleansUp)
    (hclean' : ((attest process settings request).run.run c' s' n).CleansUp) :
    ((attest process settings request).run.run c' s' n).value =
      ((attest process settings request).run.run c s n).value := by
  cases hv : ((Attest.collectParams settings.imeiSlot request).run.run c s n).value with
  | error failure =>
    obtain ⟨hdecisive, -, hvalue⟩ := decisive_attest_error c process settings request s n hv
    rw [hdecisive] at h
    obtain ⟨hsame, -⟩ := collected_of_agrees c settings request s n h
    rw [hvalue]
    exact (steps_attest_error c' process settings request s' n (hsame.trans hv)).2
  | ok params =>
    obtain ⟨course, hdecisive, hex, -, hvalue⟩ :=
      decisive_attest_ok c process settings request s n hv
    rw [value_eq_verdict hex hvalue hclean]
    rw [hdecisive] at h
    obtain ⟨hearly, hstages⟩ := Collaborators.agrees_append.mp h
    obtain ⟨hsame, hstate⟩ := collected_of_agrees c settings request s n hearly
    obtain ⟨course', hanswers, hverdict⟩ := Attest.Course.exists_alike hstages
    rw [← hstate] at hanswers
    obtain ⟨hex', hvalue'⟩ :=
      exchanges_attest_of_answers c' process settings request s' n (hsame.trans hv) hanswers
    rw [value_eq_verdict hex' hvalue' hclean', hverdict]

end Whole

/-- A status is part of the errors of a keystore, and of no others. -/
theorem AttestationError.statusCode?_eq_some_iff {cause : AttestationError} {code : StatusCode} :
    cause.statusCode? = some code ↔
      cause = .keystore .generate code ∨ cause = .keystore .attest code := by
  cases cause with
  | keystore operation code' => cases operation <;> simp [statusCode?]
  | _ => simp [statusCode?]

/-- **The first stage that fails decides the outcome of a call**, and the answer to the last
deletion has no part in it.  After the collection, the stages of a call are those of a lifecycle
without its last deletion.  If that is answered, they decide the result of the call, which is a
chain exactly if all of them succeed.  An error has a status exactly if the keystore refuses to
generate or to attest.  Collaborators that agree up to the stage that fails, whatever the
characteristics of their key, give the same result. -/
theorem attest_decided {σ : Type} (c : Collaborators σ) (process : ProcessLabel)
    (settings : AttestationSettings) (request : Request) (s : σ) (n : AliasSequence) :
    let collected := (Attest.collectParams settings.imeiSlot request).run.run c s n
    let call := (attest process settings request).run.run c s n
    let key := aliasText process settings n.next
    (∃ stages final, call.decisive = collected.exchanges ++ stages ∧
        call.exchanges = call.decisive ++ final ∧
        (final = [] ∨ ∃ last, final = [⟨.deleteKey key, last⟩]) ∧
        match collected.value with
        | .error _   => stages ++ final = []
        | .ok params => Lifecycle key params (stages ++ final)) ∧
      (call.CleansUp → Decides call.decisive call.value) ∧
      (call.CleansUp → ∀ chain, call.value = .ok chain ↔ ∃ params made entries certificates,
        collected.value = .ok params ∧
        c.Answers collected.state
          [.call (.deleteKey key) (.ok true),
           .call (.generateKey key Attest.temporaryKeyParams) (.ok (.ok made)),
           .call (.attestKey key params) (.ok (.ok entries)),
           .call (.decode entries.flatten) (.ok (.ok certificates))] ∧
        2 ≤ entries.length ∧ 2 ≤ certificates.length ∧ chain.toList = certificates) ∧
      (∀ cause, call.value = .error (.error cause) → ∀ code,
        cause.statusCode? = some code ↔
          cause = .keystore .generate code ∨ cause = .keystore .attest code) ∧
      ∀ {σ' : Type} (c' : Collaborators σ') (s' : σ'),
        let call' := (attest process settings request).run.run c' s' n
        c'.Agrees s' call.decisive → call.CleansUp → call'.CleansUp →
          call'.value = call.value := by
  intro collected call key
  refine ⟨?_, decides_attest c process settings request s n,
    fun hclean _ => value_attest_eq_ok_iff c process settings request s n hclean,
    fun _ _ _ => AttestationError.statusCode?_eq_some_iff,
    fun _ _ h => value_attest_of_agrees c process settings request s n h⟩
  cases hv : collected.value with
  | error failure =>
    obtain ⟨hdecisive, hex, -⟩ := decisive_attest_error c process settings request s n hv
    exact ⟨[], [], hdecisive.trans (List.append_nil _).symm,
      (hex.trans hdecisive.symm).trans (List.append_nil _).symm, .inl rfl, rfl⟩
  | ok params =>
    obtain ⟨course, hdecisive, hex, -, -⟩ := decisive_attest_ok c process settings request s n hv
    refine ⟨course.stages key params, course.lastDeletion key, hdecisive, hex, ?_, ?_⟩
    · cases course with
      | clearFault f => exact .inl rfl
      | refused => exact .inl rfl
      | cleared work last => exact .inr ⟨last, rfl⟩
    · show Lifecycle key params _
      rw [← course.exchanges_steps]
      exact lifecycle_course key params course

/-- A device without telephony, with a keystore that attests a key by no entries. -/
def Script.barren : Script := .new (.new "S1" .empty) []

/-- The same with a key of other characteristics. -/
def Script.barrenOther : Script :=
  { barren with characteristics := ⟨.ofList [.noAuthRequired], .ofList [.noAuthRequired]⟩ }

/-- The last deletion is consented to in the one call and refused in the other. -/
theorem attest_decided_barren :
    let request := Request.ofTypes [.serial] []
    let call := (attest (.ofNat 7) .standard request).run.run Script.barren.collaborators
      ⟨[], [true, true]⟩ .start
    let other := (attest (.ofNat 7) .standard request).run.run Script.barrenOther.collaborators
      ⟨[], [true, false]⟩ .start
    Script.barrenOther.collaborators.Agrees ⟨[], [true, false]⟩ call.decisive ∧
      other.value = call.value ∧
      call.value = .error (.error (.malformedChain (.tooFewEntries 0))) := by
  intro request call other
  have hagrees : Script.barrenOther.collaborators.Agrees ⟨[], [true, false]⟩ call.decisive :=
    ⟨rfl, rfl, rfl, ⟨_, rfl⟩, rfl, trivial⟩
  have hclean : call.CleansUp := Run.cleansUp_of_getLast? rfl
  have hclean' : other.CleansUp := Run.cleansUp_of_getLast? rfl
  obtain ⟨-, -, -, -, hsame⟩ := attest_decided Script.barren.collaborators (.ofNat 7) .standard
    request ⟨[], [true, true]⟩ .start
  exact ⟨hagrees, hsame _ _ hagrees hclean hclean', rfl⟩

end DeviceAttest
