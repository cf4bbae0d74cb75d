import DeviceAttest.Alias
import DeviceAttest.Call.Event
import DeviceAttest.Call.Query

/-!
# Programs over collaborators

A program is a tree of the steps a call may take: ask a collaborator, draw an alias number, report
an event.  `Program.run` follows one path through the tree against collaborators of any behaviour
and writes down every step.  An `Attempt` is a program that may end in a failure.
-/

namespace DeviceAttest

/-- The steps that lead to a value. -/
inductive Program (α : Type) : Type where
  | done (value : α)
  | ask (query : Query) (next : query.Reply → Program α)
  | draw (next : UInt64 → Program α)
  | report (event : Event) (next : Program α)

namespace Program

variable {α β : Type}

/-- Goes on with another program where a program ends. -/
def bind : Program α → (α → Program β) → Program β
  | done value, f        => f value
  | ask query next, f    => ask query fun reply => (next reply).bind f
  | draw next, f         => draw fun number => (next number).bind f
  | report event next, f => report event (next.bind f)

instance : Monad Program where
  pure := done
  bind := bind

theorem bind_done (p : Program α) : p.bind done = p := by
  induction p with
  | done => rfl
  | ask q next ih => exact congrArg (ask q) (funext ih)
  | draw next ih => exact congrArg draw (funext ih)
  | report e next ih => exact congrArg (report e) ih

theorem bind_bind {γ : Type} (p : Program α) (f : α → Program β) (g : β → Program γ) :
    (p.bind f).bind g = p.bind fun a => (f a).bind g := by
  induction p with
  | done => rfl
  | ask q next ih => exact congrArg (ask q) (funext ih)
  | draw next ih => exact congrArg draw (funext ih)
  | report e next ih => exact congrArg (report e) ih

instance : LawfulMonad Program :=
  LawfulMonad.mk' Program bind_done (fun _ _ => rfl) bind_bind

/-- Asks a collaborator. -/
def query (q : Query) : Program q.Reply := ask q done

/-- Draws a number of the alias sequence. -/
def drawNumber : Program UInt64 := draw done

/-- Reports an event. -/
def tell (e : Event) : Program Unit := report e (done ())

end Program

/-! ### Runs -/

/-- Collaborators with a state of their own. -/
structure Collaborators (σ : Type) where
  reply : (q : Query) → σ → q.Reply × σ

/-- One step of a run. -/
inductive Step where
  | call (query : Query) (reply : query.Reply)
  | drew (number : UInt64)
  | event (event : Event)

namespace Step

/-- The query of a step that asks a collaborator. -/
def query? : Step → Option Query
  | call query _ => some query
  | _            => none

/-- The event of a step that reports one. -/
def event? : Step → Option Event
  | event e => some e
  | _       => none

end Step

/-- How a run ended, and its steps in order. -/
structure Run (σ α : Type) where
  value : α
  state : σ
  sequence : AliasSequence
  steps : List Step

namespace Run

variable {σ α : Type}

/-- The queries of a run, in order. -/
def queries (r : Run σ α) : List Query := r.steps.filterMap Step.query?

/-- The events of a run, in order. -/
def events (r : Run σ α) : List Event := r.steps.filterMap Step.event?

/-- The run with one more step at its front. -/
def after (step : Step) (r : Run σ α) : Run σ α := { r with steps := step :: r.steps }

end Run

/-- Runs a program against collaborators. -/
def Program.run {σ α : Type} (c : Collaborators σ) : Program α → σ → AliasSequence → Run σ α
  | .done value, s, n        => ⟨value, s, n, []⟩
  | .ask query next, s, n    =>
    let (reply, s') := c.reply query s
    ((next reply).run c s' n).after (.call query reply)
  | .draw next, s, n         => ((next n.next).run c s n.advance).after (.drew n.next)
  | .report event next, s, n => (next.run c s n).after (.event event)

/-! ### Attempts -/

/-- A program that may end in a failure. -/
abbrev Attempt (α : Type) : Type := ExceptT Failure Program α

namespace Attempt

variable {α β : Type}

/-- Ends in an error. -/
def fail (cause : AttestationError) : Attempt α := throw (.error cause)

/-- The answer of a collaborator; its fault ends the attempt. -/
def answer (p : Program (Except Fault α)) : Attempt α := do
  match ← p with
  | .ok a    => pure a
  | .error f => throw (.fault f.text)

/-- The value of an answer; a refusal ends the attempt in an error. -/
def accept {ε : Type} (refused : ε → AttestationError) : Except ε α → Attempt α
  | .ok a    => pure a
  | .error e => fail (refused e)

/-- The value of an answer that may be absent; absence ends the attempt in an error. -/
def require (absent : AttestationError) : Option α → Attempt α
  | some a => pure a
  | none   => fail absent

/-- The result of an attempt after a clean-up.  A fault of the clean-up takes the place of the
result, and is the end of the process if the attempt ended in a fault itself. -/
def afterCleanUp : Except Failure α → Except Fault β → Except Failure α
  | result,            .ok _    => result
  | .ok _,             .error f => .error (.fault f.text)
  | .error (.error _), .error f => .error (.fault f.text)
  | .error _,          .error _ => .error .aborted

@[simp] theorem afterCleanUp_ok (result : Except Failure α) (b : β) :
    afterCleanUp result (.ok b) = result := by
  rcases result with (cause | text | _) | a <;> rfl

/-- A clean-up that breaks off ends the attempt or the whole process. -/
theorem afterCleanUp_error (result : Except Failure α) (f : Fault) :
    afterCleanUp result (.error f : Except Fault β) = .error (.fault f.text) ∨
      afterCleanUp result (.error f : Except Fault β) = .error .aborted := by
  rcases result with (cause | text | _) | a
  · exact .inl rfl
  · exact .inr rfl
  · exact .inr rfl
  · exact .inl rfl

/-- Runs a clean-up after an attempt, however the attempt ended. -/
def ensuring (p : Attempt α) (cleanUp : Program (Except Fault β)) : Attempt α :=
  ExceptT.mk do
    let result ← p.run
    let cleaned ← cleanUp
    pure (afterCleanUp result cleaned)

end Attempt

end DeviceAttest
