import DeviceAttest.Call.Program

/-!
# Paths through programs

What a program may do, apart from who answers it.  `p.Leads steps p'` says that the steps lead
through the tree `p` to the remainder `p'`, whatever the replies and the numbers drawn, and
`p.Path steps a` that they lead to the value `a`.

A run against collaborators is one such path.

* `path_run`: the steps of a run are a path to its value;
* `answers_run`, `state_run`: every reply on it is the one the collaborators give there, and the
  state at its end is theirs after the queries;
* `gives_run`, `sequence_run`: the numbers drawn on it are the next ones of the sequence;
* `run_eq_of_leads`: conversely, steps with such replies and numbers are how the run begins.
-/

namespace DeviceAttest

namespace Program

variable {α β : Type}

/-- The steps lead from a program to what remains of it. -/
inductive Leads : Program α → List Step → Program α → Prop where
  | refl (p : Program α) : Leads p [] p
  | ask {q : Query} {next : q.Reply → Program α} {steps : List Step} {p : Program α}
      (reply : q.Reply) (h : Leads (next reply) steps p) :
      Leads (.ask q next) (.call q reply :: steps) p
  | draw {next : UInt64 → Program α} {steps : List Step} {p : Program α} (number : UInt64)
      (h : Leads (next number) steps p) : Leads (.draw next) (.drew number :: steps) p
  | report {e : Event} {next : Program α} {steps : List Step} {p : Program α}
      (h : Leads next steps p) : Leads (.report e next) (.event e :: steps) p

/-- The steps lead from a program to a value. -/
def Path (p : Program α) (steps : List Step) (a : α) : Prop := Leads p steps (.done a)

theorem Leads.trans {p p₁ p₂ : Program α} {front back : List Step} (h₁ : Leads p front p₁)
    (h₂ : Leads p₁ back p₂) : Leads p (front ++ back) p₂ := by
  induction h₁ with
  | refl => exact h₂
  | ask reply _ ih => exact .ask reply (ih h₂)
  | draw number _ ih => exact .draw number (ih h₂)
  | report _ ih => exact .report (ih h₂)

/-! ### The paths of each construct -/

theorem path_done {a b : α} {steps : List Step} :
    Path (.done a) steps b ↔ steps = [] ∧ b = a := by
  constructor
  · intro h
    cases h
    exact ⟨rfl, rfl⟩
  · rintro ⟨rfl, rfl⟩
    exact .refl _

theorem path_ask {q : Query} {next : q.Reply → Program α} {steps : List Step} {a : α} :
    Path (.ask q next) steps a ↔
      ∃ reply later, steps = .call q reply :: later ∧ Path (next reply) later a := by
  constructor
  · intro h
    cases h with
    | ask reply h => exact ⟨reply, _, rfl, h⟩
  · rintro ⟨reply, later, rfl, h⟩
    exact .ask reply h

theorem path_draw {next : UInt64 → Program α} {steps : List Step} {a : α} :
    Path (.draw next) steps a ↔
      ∃ number later, steps = .drew number :: later ∧ Path (next number) later a := by
  constructor
  · intro h
    cases h with
    | draw number h => exact ⟨number, _, rfl, h⟩
  · rintro ⟨number, later, rfl, h⟩
    exact .draw number h

theorem path_report {e : Event} {next : Program α} {steps : List Step} {a : α} :
    Path (.report e next) steps a ↔ ∃ later, steps = .event e :: later ∧ Path next later a := by
  constructor
  · intro h
    cases h with
    | report h => exact ⟨_, rfl, h⟩
  · rintro ⟨later, rfl, h⟩
    exact .report h

/-- A path through `p` and then `f` is a path through `p`, then one through `f` at its value. -/
theorem path_bind {p : Program α} {f : α → Program β} {steps : List Step} {b : β} :
    Path (p.bind f) steps b ↔
      ∃ a front back, steps = front ++ back ∧ Path p front a ∧ Path (f a) back b := by
  constructor
  · intro h
    -- the steps belong to `p` for as long as its tree lasts, and to `f` from there on
    induction p generalizing steps with
    | done a => exact ⟨a, [], steps, rfl, .refl _, h⟩
    | ask q next ih =>
      obtain ⟨reply, later, rfl, hl⟩ := path_ask.mp h
      obtain ⟨a, front, back, rfl, h₁, h₂⟩ := ih reply hl
      exact ⟨a, .call q reply :: front, back, rfl, .ask reply h₁, h₂⟩
    | draw next ih =>
      obtain ⟨number, later, rfl, hl⟩ := path_draw.mp h
      obtain ⟨a, front, back, rfl, h₁, h₂⟩ := ih number hl
      exact ⟨a, .drew number :: front, back, rfl, .draw number h₁, h₂⟩
    | report e next ih =>
      obtain ⟨later, rfl, hl⟩ := path_report.mp h
      obtain ⟨a, front, back, rfl, h₁, h₂⟩ := ih hl
      exact ⟨a, .event e :: front, back, rfl, .report h₁, h₂⟩
  · rintro ⟨a, front, back, rfl, h₁, h₂⟩
    induction p generalizing front with
    | done a' =>
      obtain ⟨rfl, rfl⟩ := path_done.mp h₁
      exact h₂
    | ask q next ih =>
      obtain ⟨reply, later, rfl, hl⟩ := path_ask.mp h₁
      exact .ask reply (ih reply later hl)
    | draw next ih =>
      obtain ⟨number, later, rfl, hl⟩ := path_draw.mp h₁
      exact .draw number (ih number later hl)
    | report e next ih =>
      obtain ⟨later, rfl, hl⟩ := path_report.mp h₁
      exact .report (ih later hl)

/-! ### What holds of every step -/

/-- Every step that a program may take has a property. -/
def Always (P : Step → Prop) (p : Program α) : Prop :=
  ∀ steps a, Path p steps a → ∀ step ∈ steps, P step

theorem always_done {P : Step → Prop} (a : α) : Always P (.done a) := by
  intro steps b h step hs
  obtain ⟨rfl, -⟩ := path_done.mp h
  exact absurd hs List.not_mem_nil

theorem always_query {P : Step → Prop} {q : Query} (h : ∀ reply, P (.call q reply)) :
    Always P (query q) := by
  intro steps a hp step hs
  obtain ⟨reply, later, rfl, hl⟩ := path_ask.mp hp
  obtain ⟨rfl, -⟩ := path_done.mp hl
  rw [List.mem_singleton] at hs
  exact hs ▸ h reply

theorem always_bind {P : Step → Prop} {p : Program α} {f : α → Program β} (hp : Always P p)
    (hf : ∀ a, Always P (f a)) : Always P (p.bind f) := by
  intro steps b h step hs
  obtain ⟨a, front, back, rfl, h₁, h₂⟩ := path_bind.mp h
  rcases List.mem_append.mp hs with hs | hs
  · exact hp front a h₁ step hs
  · exact hf a back b h₂ step hs

end Program

/-! ### Attempts -/

namespace Attempt

open Program

variable {α β : Type} {P : Step → Prop}

theorem always_pure (a : α) : Always P (pure a : Attempt α).run := always_done _

theorem always_fail (cause : AttestationError) : Always P (fail cause : Attempt α).run :=
  always_done _

theorem always_bind {x : Attempt α} {f : α → Attempt β} (hx : Always P x.run)
    (hf : ∀ a, Always P (f a).run) : Always P (x >>= f).run := by
  refine Program.always_bind hx fun r => ?_
  cases r with
  | error e => exact always_done _
  | ok a => exact hf a

theorem always_answer {p : Program (Except Fault α)} (hp : Always P p) :
    Always P (answer p).run := by
  have hl : Always P (p.bind fun r => .done (Except.ok r : Except Failure (Except Fault α))) :=
    Program.always_bind hp fun _ => always_done _
  refine Program.always_bind hl fun r => ?_
  rcases r with e | f | a
  · exact always_done _
  · exact always_done _
  · exact always_done _

theorem always_accept {ε : Type} (refused : ε → AttestationError) (r : Except ε α) :
    Always P (accept refused r).run := by
  cases r with
  | error e => exact always_fail _
  | ok a => exact always_pure _

theorem always_require (absent : AttestationError) (r : Option α) :
    Always P (require absent r).run := by
  cases r with
  | none => exact always_fail _
  | some a => exact always_pure _

/-- What cleans up after an attempt comes last on every path, and has a part in the result only if
it breaks off. -/
theorem path_ensuring {x : Attempt α} {cleanUp : Program (Except Fault β)} {steps : List Step}
    {r : Except Failure α} :
    Path (x.ensuring cleanUp).run steps r ↔
      ∃ result cleaned front back, steps = front ++ back ∧ Path x.run front result ∧
        Path cleanUp back cleaned ∧ r = afterCleanUp result cleaned := by
  constructor
  · intro h
    obtain ⟨result, front, _, rfl, h₁, h₂⟩ := path_bind.mp h
    obtain ⟨cleaned, back, _, rfl, h₃, h₄⟩ := path_bind.mp h₂
    obtain ⟨rfl, rfl⟩ := path_done.mp h₄
    exact ⟨result, cleaned, front, back, by rw [List.append_nil], h₁, h₃, rfl⟩
  · rintro ⟨result, cleaned, front, back, rfl, h₁, h₂, rfl⟩
    refine path_bind.mpr ⟨result, front, back, rfl, h₁, ?_⟩
    exact path_bind.mpr ⟨cleaned, back, [], (List.append_nil _).symm, h₂, .refl _⟩

end Attempt

/-! ### Runs -/

/-- The queries among some steps, in order. -/
def Step.queries (steps : List Step) : List Query := steps.filterMap Step.query?

theorem queries_append (front back : List Step) :
    Step.queries (front ++ back) = Step.queries front ++ Step.queries back :=
  List.filterMap_append

namespace Collaborators

variable {σ : Type}

/-- The state of the collaborators after some queries. -/
def after (c : Collaborators σ) (s : σ) (queries : List Query) : σ :=
  queries.foldl (fun s q => (c.reply q s).2) s

/-- Every reply among the steps is the one that the collaborators give at its place. -/
def Answers (c : Collaborators σ) : σ → List Step → Prop
  | _, []                     => True
  | s, .call q reply :: steps => (c.reply q s).1 = reply ∧ c.Answers (c.reply q s).2 steps
  | s, .drew _ :: steps       => c.Answers s steps
  | s, .event _ :: steps      => c.Answers s steps

theorem after_append (c : Collaborators σ) (s : σ) (front back : List Query) :
    c.after s (front ++ back) = c.after (c.after s front) back :=
  List.foldl_append

theorem answers_append (c : Collaborators σ) (s : σ) (front back : List Step) :
    c.Answers s (front ++ back) ↔
      c.Answers s front ∧ c.Answers (c.after s (Step.queries front)) back := by
  induction front generalizing s with
  | nil => exact ⟨fun h => ⟨trivial, h⟩, And.right⟩
  | cons step front ih =>
    cases step with
    | call q reply => exact (and_congr_right' (ih _)).trans and_assoc.symm
    | drew number => exact ih s
    | event e => exact ih s

end Collaborators

namespace AliasSequence

/-- The sequence after the draws among some steps. -/
def after : AliasSequence → List Step → AliasSequence
  | n, []                => n
  | n, .drew _ :: steps  => n.advance.after steps
  | n, _ :: steps        => n.after steps

/-- Every number drawn among the steps is the next one of the sequence at its place. -/
def Gives : AliasSequence → List Step → Prop
  | _, []                    => True
  | n, .drew number :: steps => number = n.next ∧ n.advance.Gives steps
  | n, _ :: steps            => n.Gives steps

end AliasSequence

/-- The run with more steps at its front. -/
def Run.afterAll {σ α : Type} (steps : List Step) (r : Run σ α) : Run σ α :=
  { r with steps := steps ++ r.steps }

namespace Program

variable {σ α β : Type} (c : Collaborators σ)

theorem path_run (p : Program α) (s : σ) (n : AliasSequence) :
    Path p (p.run c s n).steps (p.run c s n).value := by
  induction p generalizing s n with
  | done a => exact .refl _
  | ask q next ih => exact .ask _ (ih _ _ _)
  | draw next ih => exact .draw _ (ih _ _ _)
  | report e next ih => exact .report (ih _ _)

theorem answers_run (p : Program α) (s : σ) (n : AliasSequence) :
    c.Answers s (p.run c s n).steps := by
  induction p generalizing s n with
  | done a => trivial
  | ask q next ih => exact ⟨rfl, ih _ _ _⟩
  | draw next ih => exact ih _ _ _
  | report e next ih => exact ih _ _

theorem state_run (p : Program α) (s : σ) (n : AliasSequence) :
    (p.run c s n).state = c.after s (p.run c s n).queries := by
  induction p generalizing s n with
  | done a => rfl
  | ask q next ih => exact ih _ _ _
  | draw next ih => exact ih _ _ _
  | report e next ih => exact ih _ _

theorem gives_run (p : Program α) (s : σ) (n : AliasSequence) : n.Gives (p.run c s n).steps := by
  induction p generalizing s n with
  | done a => trivial
  | ask q next ih => exact ih _ _ _
  | draw next ih => exact ⟨rfl, ih _ _ _⟩
  | report e next ih => exact ih _ _

theorem sequence_run (p : Program α) (s : σ) (n : AliasSequence) :
    (p.run c s n).sequence = n.after (p.run c s n).steps := by
  induction p generalizing s n with
  | done a => rfl
  | ask q next ih => exact ih _ _ _
  | draw next ih => exact ih _ _ _
  | report e next ih => exact ih _ _

/-- A run of `p` and then `f` is a run of `p`, then one of `f` from where it ended. -/
theorem run_bind (p : Program α) (f : α → Program β) (s : σ) (n : AliasSequence) :
    (p.bind f).run c s n =
      ((f (p.run c s n).value).run c (p.run c s n).state (p.run c s n).sequence).afterAll
        (p.run c s n).steps := by
  induction p generalizing s n with
  | done a => rfl
  | ask q next ih => exact congrArg (Run.after _) (ih _ _ _)
  | draw next ih => exact congrArg (Run.after _) (ih _ _ _)
  | report e next ih => exact congrArg (Run.after _) (ih _ _)

/-- **Steps with the right replies and numbers are how the run begins**: it goes on as a run of
the remainder. -/
theorem run_eq_of_leads {p p' : Program α} {steps : List Step} (h : Leads p steps p') {s : σ}
    {n : AliasSequence} (ha : c.Answers s steps) (hg : n.Gives steps) :
    p.run c s n =
      (p'.run c (c.after s (Step.queries steps)) (n.after steps)).afterAll steps := by
  induction h generalizing s n with
  | refl p => rfl
  | ask reply _ ih =>
    -- the reply on the path is the one that the run gets, so both go the same way
    obtain ⟨rfl, ha⟩ := ha
    exact congrArg (Run.after _) (ih ha hg)
  | draw number _ ih =>
    obtain ⟨rfl, hg⟩ := hg
    exact congrArg (Run.after _) (ih ha hg)
  | report _ ih => exact congrArg (Run.after _) (ih ha hg)

end Program

end DeviceAttest
