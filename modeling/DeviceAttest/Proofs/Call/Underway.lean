import DeviceAttest.Proofs.Call.Conduct
import DeviceAttest.Proofs.Call.Custody

/-!
# Calls underway

Steps that lead to a remainder of a call are the beginning of some path (`exists_path`), so the
form of the paths tells what a call underway may have done and may do next.

* `numbers_of_leads`: it has drawn at most one number;
* `key_of_leads`: whatever key it names is that of the number it has drawn before, so a whole run
  names the key of one number only (`key_of_run`);
* `leads_generate`, `leads_attest`: what it has done when it comes to generate or to attest.
-/

namespace DeviceAttest

open Program

theorem Query.reply_nonempty (q : Query) : Nonempty q.Reply := by
  cases q with
  | _ => exact ⟨.error ⟨""⟩⟩

namespace Program

variable {α : Type}

/-- Every program has a path. -/
theorem exists_path (p : Program α) : ∃ steps a, Path p steps a := by
  induction p with
  | done a => exact ⟨[], a, .refl _⟩
  | ask q next ih =>
    obtain ⟨reply⟩ := q.reply_nonempty
    obtain ⟨steps, a, h⟩ := ih reply
    exact ⟨_, a, .ask reply h⟩
  | draw next ih =>
    obtain ⟨steps, a, h⟩ := ih 0
    exact ⟨_, a, .draw 0 h⟩
  | report e next ih =>
    obtain ⟨steps, a, h⟩ := ih
    exact ⟨_, a, .report h⟩

/-- Steps that lead somewhere begin a path. -/
theorem Leads.exists_path {p p' : Program α} {steps : List Step} (h : Leads p steps p') :
    ∃ later a, Path p (steps ++ later) a := by
  obtain ⟨later, a, hl⟩ := p'.exists_path
  exact ⟨later, a, h.trans hl⟩

/-- Each beginning of steps leads somewhere. -/
theorem Leads.split {p p' : Program α} {front back : List Step} (h : Leads p (front ++ back) p') :
    ∃ p₁, Leads p front p₁ ∧ Leads p₁ back p' := by
  induction front generalizing p with
  | nil => exact ⟨p, .refl p, h⟩
  | cons step front ih =>
    cases h with
    | ask reply h =>
      obtain ⟨p₁, h₁, h₂⟩ := ih h
      exact ⟨p₁, .ask reply h₁, h₂⟩
    | draw number h =>
      obtain ⟨p₁, h₁, h₂⟩ := ih h
      exact ⟨p₁, .draw number h₁, h₂⟩
    | report h =>
      obtain ⟨p₁, h₁, h₂⟩ := ih h
      exact ⟨p₁, .report h₁, h₂⟩

end Program

/-! ### Keys named in a call -/

theorem Step.OfSource.key?_eq_none {step : Step} (h : step.OfSource) : step.key? = none := by
  cases step with
  | drew number => rfl
  | event e => rfl
  | call q reply =>
    cases q with
    | deleteKey key => exact absurd h Bool.false_ne_true
    | generateKey key params => exact absurd h Bool.false_ne_true
    | attestKey key params => exact absurd h Bool.false_ne_true
    | _ => rfl

theorem key?_completion (key : String) (r : Except Failure Chain) :
    ∀ step ∈ Attest.Work.completion key r, step.key? = none := by
  cases r with
  | error f => simp [Attest.Work.completion]
  | ok chain => simp [Attest.Work.completion, Step.key?]

/-- Work names its key only. -/
theorem Attest.Work.key? (work : Work) (key : String) (params : AuthorizationSet) :
    ∀ step ∈ work.steps key params, step.key? = none ∨ step.key? = some key := by
  cases work with
  | decoded made entries enough reply =>
    have h := key?_completion key (ofDecoder reply)
    simp only [steps, generation, attestation, List.forall_mem_append, List.forall_mem_cons]
    exact ⟨⟨⟨.inr rfl, .inl rfl, by simp⟩, .inr rfl, .inl rfl, by simp⟩, .inl rfl,
      fun step hs => .inl (h step hs)⟩
  | _ => simp [steps, generation, attestation, Step.key?, Query.key?]

/-- A course names its key only. -/
theorem Attest.Course.key? (course : Course) (key : String) (params : AuthorizationSet) :
    ∀ step ∈ course.steps key params, step.key? = none ∨ step.key? = some key := by
  cases course with
  | clearFault f => simp [steps, Step.key?, Query.key?]
  | refused => simp [steps, Step.key?, Query.key?]
  | cleared work last =>
    intro step hs
    simp only [steps, List.mem_cons, List.mem_append, release, List.mem_map] at hs
    rcases hs with rfl | rfl | hs | rfl | ⟨e, -, rfl⟩
    · exact .inl rfl
    · exact .inr rfl
    · exact work.key? key params step hs
    · exact .inr rfl
    · exact .inl rfl

/-! ### Attestations -/

/-- A step that asks for an attestation. -/
def Step.Attests : Step → Prop
  | .call (.attestKey _ _) _ => True
  | _                        => False

theorem Step.OfSource.not_attests {step : Step} (h : step.OfSource) : ¬ step.Attests := by
  cases step with
  | drew number => exact not_false
  | event e => exact not_false
  | call q reply =>
    cases q with
    | attestKey key params => exact absurd h Bool.false_ne_true
    | _ => exact not_false

/-- Work that asks for an attestation does so once, right after the generation. -/
theorem Attest.Work.steps_of_attests {work : Work} {key : String} {params : AuthorizationSet}
    {step : Step} (hs : step ∈ work.steps key params) (ha : step.Attests) :
    ∃ made reply later,
      work.steps key params =
        generation key made ++ .call (.attestKey key params) reply :: later ∧
        ∀ x ∈ later, ¬ x.Attests := by
  cases work with
  | generateFault f =>
    rw [List.mem_singleton.mp hs] at ha
    exact ha.elim
  | generateRefused code =>
    rw [List.mem_singleton.mp hs] at ha
    exact ha.elim
  | attestFault made f => exact ⟨made, _, [], rfl, by simp⟩
  | attestRefused made code => exact ⟨made, _, [], rfl, by simp⟩
  | tooFew made entries few =>
    exact ⟨made, _, _, rfl, List.forall_mem_singleton.mpr not_false⟩
  | decoded made entries enough reply =>
    refine ⟨made, _, _, List.append_assoc _ _ _, ?_⟩
    refine List.forall_mem_cons.mpr ⟨not_false, List.forall_mem_cons.mpr ⟨not_false, ?_⟩⟩
    cases ofDecoder reply with
    | error f => simp [completion]
    | ok chain => exact List.forall_mem_singleton.mpr not_false

/-- A course that asks for an attestation does so once, right after the generation. -/
theorem Attest.Course.steps_of_attests {course : Course} {key : String}
    {params : AuthorizationSet} {step : Step} (hs : step ∈ course.steps key params)
    (ha : step.Attests) :
    ∃ made reply later,
      course.steps key params =
        .event (.clearing key) :: .call (.deleteKey key) (.ok true) ::
          (Work.generation key made ++ .call (.attestKey key params) reply :: later) ∧
        ∀ x ∈ later, ¬ x.Attests := by
  cases course with
  | clearFault f | refused =>
    simp only [steps, List.mem_cons, List.not_mem_nil, or_false] at hs
    rcases hs with rfl | rfl
    · exact ha.elim
    · exact ha.elim
  | cleared work last =>
    have hrelease : ∀ x ∈ release key last, ¬ x.Attests := by
      simp only [release, List.forall_mem_cons, List.forall_mem_map]
      exact ⟨not_false, fun _ _ => not_false⟩
    have hwork : step ∈ work.steps key params := by
      simp only [steps, List.mem_cons, List.mem_append] at hs
      rcases hs with rfl | rfl | hs | hs
      · exact ha.elim
      · exact ha.elim
      · exact hs
      · exact absurd ha (hrelease step hs)
    obtain ⟨made, reply, later, hsteps, hlater⟩ := Work.steps_of_attests hwork ha
    refine ⟨made, reply, later ++ release key last, ?_, ?_⟩
    · rw [steps, hsteps, List.append_assoc]
      rfl
    · exact List.forall_mem_append.mpr ⟨hlater, hrelease⟩

/-! ### What a call underway has done -/

section

variable {process : ProcessLabel} {settings : AttestationSettings} {request : Request}
  {steps : List Step} {rest : Program (Except Failure Chain)}

/-- A call underway has drawn at most one number. -/
theorem numbers_of_leads (h : Leads (attest process settings request).run steps rest) :
    Step.numbers steps = [] ∨ ∃ number, Step.numbers steps = [number] := by
  obtain ⟨later, r, hpath⟩ := h.exists_path
  obtain ⟨number, hnumbers, -⟩ := path_rename hpath 0
  rw [numbers_append] at hnumbers
  rcases hnumbers with ⟨hnil, -⟩ | hone
  · exact .inl (List.append_eq_nil_iff.mp hnil).1
  · rcases List.append_eq_singleton_iff.mp hone with ⟨hnil, -⟩ | ⟨hsteps, -⟩
    · exact .inl hnil
    · exact .inr ⟨number, hsteps⟩

/-- The key of a step is that of the number drawn before it. -/
theorem key_of_leads (h : Leads (attest process settings request).run steps rest)
    {front back : List Step} {step : Step} (hs : steps = front ++ step :: back) {key : String}
    (hk : step.key? = some key) :
    ∃ number, Step.numbers front = [number] ∧ key = aliasText process settings number := by
  obtain ⟨later, r, hpath⟩ := h.exists_path
  rw [hs, List.append_assoc, List.cons_append] at hpath
  have hsource {early : List Step} {x : Except Failure AuthorizationSet}
      (hc : Path (Attest.collectParams settings.imeiSlot request).run early x) :
      step ∉ early := fun hmem => by
    have hnone := (Attest.always_collectParams _ _ _ _ hc step hmem).key?_eq_none
    exact absurd (hk.symm.trans hnone) (Option.some_ne_none key)
  rcases path_attest.mp hpath with ⟨f, hc, -⟩ | ⟨params, early, number, course, hc, heq, -⟩
  · exact absurd (by simp) (hsource hc)
  · -- the step names a key, so it comes after the collection and the number
    have hdrew : step ≠ .drew number := by
      rintro rfl
      exact Option.some_ne_none key hk.symm
    obtain ⟨gap, rfl, hcourse⟩ := split_later (hsource hc) hdrew heq
    have hearly : Step.numbers early = [] := numbers_eq_nil fun x hx =>
      (Attest.always_collectParams _ _ _ _ hc x hx).quiet
    have hgap : Step.numbers gap = [] := by
      have h := numbers_course (aliasText process settings number) params course
      rw [hcourse, numbers_append] at h
      exact (List.append_eq_nil_iff.mp h).1
    have hnamed := course.key? (aliasText process settings number) params step (by simp [hcourse])
    refine ⟨number, ?_, ?_⟩
    · rw [numbers_append, hearly]
      exact congrArg (number :: ·) hgap
    · rcases hnamed with hnone | hsome
      · exact absurd (hk.symm.trans hnone) (Option.some_ne_none key)
      · exact Option.some.inj (hk.symm.trans hsome)

/-- The keys of a run are that of the next number in the sequence. -/
theorem key_of_run {σ : Type} {c : Collaborators σ} {s : σ} {n : AliasSequence} {step : Step}
    (hs : step ∈ ((attest process settings request).run.run c s n).steps) {key : String}
    (hk : step.key? = some key) : key = aliasText process settings n.next := by
  have hgives := gives_run c (attest process settings request).run s n
  obtain ⟨front, back, hsplit⟩ := List.append_of_mem hs
  obtain ⟨number, hnumbers, rfl⟩ := key_of_leads (path_run c _ s n) hsplit hk
  rw [hsplit, AliasSequence.gives_append] at hgives
  have hnext := hgives.1.next_mem (by simp [hnumbers])
  rw [hnumbers, List.mem_singleton] at hnext
  rw [hnext]

/-- When it comes to generate, a call has had its key deleted just before. -/
theorem leads_generate {key : String} {params : AuthorizationSet}
    {next : (Query.generateKey key params).Reply → Program (Except Failure Chain)}
    (h : Leads (attest process settings request).run steps (.ask (.generateKey key params) next)) :
    ∃ front, steps = front ++ [.call (.deleteKey key) (.ok true)] := by
  obtain ⟨reply⟩ := (Query.generateKey key params).reply_nonempty
  obtain ⟨later, r, hpath⟩ := (h.trans (.ask reply (.refl _))).exists_path
  have hform := form_path hpath
  have hgen : (Step.call (.generateKey key params) reply).Generates := trivial
  rw [List.append_assoc, List.singleton_append] at hform
  generalize htotal : steps ++ .call (.generateKey key params) reply :: later = total at hform
  have hmem : .call (.generateKey key params) reply ∈ total := by simp [← htotal]
  cases hform with
  | quiet hq => exact absurd hgen (hq _ hmem).not_generates
  | refused he number reply' unconsented =>
    rcases List.mem_append.mp hmem with hmem | hmem
    · exact absurd hgen (he _ hmem).not_generates
    · simp at hmem
  | @whole early later he number reply' hl last told =>
    obtain ⟨rfl, heq, -⟩ := split_whole he hl hgen htotal
    cases heq
    exact ⟨early ++ [.drew number, .event (.clearing (aliasText process settings number))],
      by simp⟩

/-- When it comes to attest, a call has asked nothing since it generated the same key. -/
theorem leads_attest {key : String} {params : AuthorizationSet}
    {next : (Query.attestKey key params).Reply → Program (Except Failure Chain)}
    (h : Leads (attest process settings request).run steps (.ask (.attestKey key params) next)) :
    ∃ front reply e, steps =
        front ++ [.call (.generateKey key Attest.temporaryKeyParams) reply, .event e] ∧
      ∀ step ∈ front, ¬ step.Generates := by
  obtain ⟨reply⟩ := (Query.attestKey key params).reply_nonempty
  obtain ⟨later, r, hpath⟩ := (h.trans (.ask reply (.refl _))).exists_path
  have hatt : (Step.call (.attestKey key params) reply).Attests := trivial
  rw [List.append_assoc, List.singleton_append] at hpath
  rcases path_attest.mp hpath with ⟨f, hc, -⟩ | ⟨ps, early, number, course, hc, heq, -⟩
  · have hsource := Attest.always_collectParams _ _ _ _ hc
    exact absurd hatt (hsource (.call (.attestKey key params) reply) (by simp)).not_attests
  · have hsource := Attest.always_collectParams _ _ _ _ hc
    let k := aliasText process settings number
    have hmem : .call (.attestKey key params) reply ∈
        early ++ .drew number :: course.steps k ps := by
      rw [← heq]
      simp
    have hcourse : .call (.attestKey key params) reply ∈ course.steps k ps := by
      rcases List.mem_append.mp hmem with hmem | hmem
      · exact absurd hatt (hsource _ hmem).not_attests
      · simpa using hmem
    obtain ⟨made, reply', later', hsteps, hback⟩ :=
      Attest.Course.steps_of_attests hcourse hatt
    -- what comes before the generation
    let front : List Step :=
      early ++ [.drew number, .event (.clearing k), .call (.deleteKey k) (.ok true)]
    have htotal : steps ++ .call (.attestKey key params) reply :: later =
        (front ++ Attest.Work.generation k made) ++ .call (.attestKey k ps) reply' :: later' := by
      rw [heq, hsteps]
      simp [front]
    have hfront : ∀ x ∈ front ++ Attest.Work.generation k made, ¬ x.Attests := by
      simp only [front, Attest.Work.generation, List.append_assoc, List.forall_mem_append,
        List.forall_mem_cons]
      exact ⟨fun x hx => (hsource x hx).not_attests,
        ⟨not_false, not_false, not_false, by simp⟩, not_false, not_false, by simp⟩
    obtain ⟨rfl, hstep, -⟩ := split_inj hfront hback hatt htotal
    have hkey : key = k := (Query.attestKey.inj (Step.call.inj hstep).1).1
    rw [hkey]
    refine ⟨front, _, _, rfl, ?_⟩
    simp only [front, List.forall_mem_append, List.forall_mem_cons]
    exact ⟨fun x hx => (hsource x hx).quiet.not_generates, not_false, not_false, not_false,
      by simp⟩

end

end DeviceAttest
