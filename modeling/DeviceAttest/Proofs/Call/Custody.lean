import DeviceAttest.Proofs.Call.Form
import Mathlib.Data.List.Basic
import Mathlib.Order.BooleanAlgebra.Set

/-!
# What a call does to the keys of a keystore

A keystore in `Custody` of its keys deletes a key when it consents to, and not when it refuses or
breaks off; it adds at most the key it is asked to generate, and changes its keys on no other
question.  Steps in the form of a call then have one of the four `Outcome`s (`Custody.outcome`);
whichever it is, they leave all keys but their own alone.
-/

namespace DeviceAttest

open Program

/-- A keystore is in custody of the keys that it holds in a state: a deletion takes the key if it is
consented to and nothing otherwise, a generation brings at most its key, whatever it replies, and
no other question changes the keys. -/
structure Custody {σ : Type} (resident : σ → Set String) (c : Collaborators σ) : Prop where
  consented : ∀ s key, (c.reply (.deleteKey key) s).1 = .ok true →
    resident (c.reply (.deleteKey key) s).2 = resident s \ {key}
  refused : ∀ s key, (c.reply (.deleteKey key) s).1 ≠ .ok true →
    resident (c.reply (.deleteKey key) s).2 = resident s
  keeps : ∀ s key params, resident s ⊆ resident (c.reply (.generateKey key params) s).2
  adds : ∀ s key params,
    resident (c.reply (.generateKey key params) s).2 ⊆ insert key (resident s)
  other : ∀ (q : Query) s, q.writesKeys = false → resident (c.reply q s).2 = resident s

/-! ### Deletions and generations among steps -/

/-- Whether a keystore consents to a deletion; if it breaks off it does not. -/
def consents : Except Fault Bool → Bool
  | .ok consent => consent
  | .error _    => false

theorem consents_eq_false {reply : Except Fault Bool} (h : reply ≠ .ok true) :
    consents reply = false := by
  rcases reply with f | _ | _
  · rfl
  · rfl
  · exact absurd rfl h

/-- The key of a step that asks for a deletion, and whether the keystore consents. -/
def Step.deletion? : Step → Option (String × Bool)
  | .call (.deleteKey key) reply => some (key, consents reply)
  | _                            => none

/-- The deletions among some steps, in order, and whether the keystore consents to them. -/
def Step.deletions (steps : List Step) : List (String × Bool) := steps.filterMap Step.deletion?

/-- A step that asks for a generation. -/
def Step.Generates : Step → Prop
  | .call (.generateKey _ _) _ => True
  | _                          => False

theorem Step.Quiet.not_generates {step : Step} (h : step.Quiet) : ¬ step.Generates := by
  cases step with
  | drew number => exact h.elim
  | event e => exact not_false
  | call q reply =>
    cases q with
    | generateKey key params => exact absurd h.symm Bool.false_ne_true
    | _ => exact not_false

theorem Step.Quiet.deletion?_eq_none {step : Step} (h : step.Quiet) : step.deletion? = none := by
  cases step with
  | drew number => exact h.elim
  | event e => rfl
  | call q reply =>
    cases q with
    | deleteKey key => exact absurd h.symm Bool.false_ne_true
    | _ => rfl

theorem deletions_eq_nil {steps : List Step} (h : ∀ step ∈ steps, step.Quiet) :
    Step.deletions steps = [] :=
  List.filterMap_eq_nil_iff.mpr fun step hs => (h step hs).deletion?_eq_none

theorem deletions_append (front back : List Step) :
    Step.deletions (front ++ back) = Step.deletions front ++ Step.deletions back :=
  List.filterMap_append

/-- Steps split in one way only at a step of a kind that comes once. -/
theorem split_inj {P : Step → Prop} {front front' back back' : List Step} {step step' : Step}
    (hfront : ∀ x ∈ front, ¬ P x) (hback : ∀ x ∈ back, ¬ P x) (hstep : P step')
    (h : front' ++ step' :: back' = front ++ step :: back) :
    front' = front ∧ step' = step ∧ back' = back := by
  have hf : step' ∉ front := fun hmem => hfront step' hmem hstep
  have hb : step' ∉ back := fun hmem => hback step' hmem hstep
  obtain ⟨h₁, h₂, h₃⟩ := (List.append_cons_inj_of_notMem hf hb).mp h.symm
  exact ⟨h₁.symm, h₂.symm, h₃.symm⟩

/-- A step that is neither among the first ones nor the next one comes after them. -/
theorem split_later {front back early later : List Step} {step x : Step} (hearly : step ∉ early)
    (hx : step ≠ x) (h : front ++ step :: back = early ++ x :: later) :
    ∃ gap, front = early ++ x :: gap ∧ later = gap ++ step :: back := by
  rcases List.append_eq_append_iff.mp h with ⟨gap, rfl, hb⟩ | ⟨gap, rfl, hb⟩
  · -- the first ones would go on with the step
    cases gap with
    | nil => exact absurd (List.cons.inj hb).1 hx
    | cons y gap =>
      obtain ⟨rfl, -⟩ := List.cons.inj hb
      exact absurd (by simp) hearly
  · cases gap with
    | nil => exact absurd (List.cons.inj hb).1.symm hx
    | cons y gap =>
      obtain ⟨rfl, hl⟩ := List.cons.inj hb
      exact ⟨gap, rfl, hl⟩

/-! ### The outcome of a call -/

section

variable {σ : Type} (resident : σ → Set String) (c : Collaborators σ) (s : σ) (key : String)
  (steps : List Step)

/-- Among the steps is a generation that leaves a key behind, whatever it replies. -/
def LeavesKey : Prop :=
  ∃ front params reply back, steps = front ++ .call (.generateKey key params) reply :: back ∧
    key ∈ resident (c.after s (Step.queries front ++ [.generateKey key params]))

/-- How the steps of a call leave the keys under a key of its own. -/
inductive Outcome : Prop where
  | idle (hn : Step.numbers steps = []) (hd : Step.deletions steps = [])
      (hr : resident (c.after s (Step.queries steps)) = resident s)
  | refused (hn : Step.numbers steps ≠ []) (hd : Step.deletions steps = [(key, false)])
      (hr : resident (c.after s (Step.queries steps)) = resident s)
  | removed (hn : Step.numbers steps ≠ [])
      (hd : Step.deletions steps = [(key, true), (key, true)])
      (hr : resident (c.after s (Step.queries steps)) = resident s \ {key})
  | leftBehind (hn : Step.numbers steps ≠ [])
      (hd : Step.deletions steps = [(key, true), (key, false)])
      (hr : resident (c.after s (Step.queries steps)) \ {key} = resident s \ {key})
      (hk : key ∈ resident (c.after s (Step.queries steps)) ↔ LeavesKey resident c s key steps)

end

/-! ### Calls that generate -/

section Whole

variable {key : String} {early later : List Step} {number : UInt64}
  {reply : Except Fault (Except StatusCode KeyCharacteristics)} {last : Except Fault Bool}
  {told : List Event}

theorem numbers_whole_ne_nil :
    Step.numbers (Call.wholeSteps key early number reply later last told) ≠ [] := by
  rw [Call.wholeSteps, numbers_append]
  exact List.append_ne_nil_of_right_ne_nil _ (List.cons_ne_nil _ _)

/-- Events are quiet. -/
theorem quiet_of_mem_events {step : Step} (h : step ∈ told.map Step.event) : step.Quiet := by
  obtain ⟨e, -, rfl⟩ := List.mem_map.mp h
  trivial

theorem queries_events : Step.queries (told.map Step.event) = [] := by
  refine List.filterMap_eq_nil_iff.mpr fun step hs => ?_
  obtain ⟨e, -, rfl⟩ := List.mem_map.mp hs
  rfl

theorem deletions_whole (he : ∀ step ∈ early, step.Quiet) (hl : ∀ step ∈ later, step.Quiet) :
    Step.deletions (Call.wholeSteps key early number reply later last told) =
      [(key, true), (key, consents last)] := by
  have hevents : Step.deletions (told.map .event) = [] :=
    deletions_eq_nil fun _ => quiet_of_mem_events
  rw [Call.wholeSteps, deletions_append, deletions_eq_nil he]
  show (key, true) :: Step.deletions (later ++ .call (.deleteKey key) last :: told.map .event) = _
  rw [deletions_append, deletions_eq_nil hl]
  exact congrArg (fun deletions => [(key, true), (key, consents last)] ++ deletions) hevents

theorem after_whole {σ : Type} (c : Collaborators σ) (s : σ) :
    c.after s (Step.queries (Call.wholeSteps key early number reply later last told)) =
      (c.reply (.deleteKey key)
        (c.after
          (c.reply (.generateKey key Attest.temporaryKeyParams)
            (c.reply (.deleteKey key) (c.after s (Step.queries early))).2).2
          (Step.queries later))).2 := by
  rw [Call.wholeSteps, queries_append, c.after_append]
  show c.after _ (Step.queries (later ++ .call (.deleteKey key) last :: told.map .event)) = _
  rw [queries_append, c.after_append]
  show c.after _ (Step.queries (told.map .event)) = _
  rw [queries_events]
  rfl

/-- There is one generation only. -/
theorem split_whole (he : ∀ step ∈ early, step.Quiet) (hl : ∀ step ∈ later, step.Quiet)
    {front back : List Step} {step : Step} (hstep : step.Generates)
    (h : front ++ step :: back = Call.wholeSteps key early number reply later last told) :
    front =
        early ++ [.drew number, .event (.clearing key), .call (.deleteKey key) (.ok true)] ∧
      step = .call (.generateKey key Attest.temporaryKeyParams) reply ∧
      back = later ++ .call (.deleteKey key) last :: told.map .event := by
  have hfront : ∀ x ∈ early ++ [.drew number, .event (.clearing key),
      .call (.deleteKey key) (.ok true)], ¬ x.Generates := by
    intro x hx
    rcases List.mem_append.mp hx with hx | hx
    · exact (he x hx).not_generates
    · simp only [List.mem_cons, List.not_mem_nil, or_false] at hx
      rcases hx with rfl | rfl | rfl <;> exact not_false
  have hback : ∀ x ∈ later ++ .call (.deleteKey key) last :: told.map .event,
      ¬ x.Generates := by
    intro x hx
    rcases List.mem_append.mp hx with hx | hx
    · exact (hl x hx).not_generates
    · rcases List.mem_cons.mp hx with rfl | hx
      · exact not_false
      · exact (quiet_of_mem_events hx).not_generates
  refine split_inj hfront hback hstep (h.trans ?_)
  rw [Call.wholeSteps, List.append_assoc]
  rfl

/-- The generation leaves a key if there is one in the state after it. -/
theorem leavesKey_whole {σ : Type} {resident : σ → Set String} {c : Collaborators σ} {s : σ}
    (he : ∀ step ∈ early, step.Quiet) (hl : ∀ step ∈ later, step.Quiet) :
    LeavesKey resident c s key (Call.wholeSteps key early number reply later last told) ↔
      key ∈ resident (c.reply (.generateKey key Attest.temporaryKeyParams)
        (c.reply (.deleteKey key) (c.after s (Step.queries early))).2).2 := by
  have hstate : c.after s (Step.queries (early ++ [.drew number, .event (.clearing key),
        .call (.deleteKey key) (.ok true)]) ++ [.generateKey key Attest.temporaryKeyParams]) =
      (c.reply (.generateKey key Attest.temporaryKeyParams)
        (c.reply (.deleteKey key) (c.after s (Step.queries early))).2).2 := by
    rw [queries_append, List.append_assoc, c.after_append]
    rfl
  rw [← hstate]
  constructor
  · rintro ⟨front, params, reply', back, heq, hk⟩
    have hstep : (Step.call (.generateKey key params) reply').Generates := trivial
    obtain ⟨rfl, hgen, -⟩ := split_whole he hl hstep heq.symm
    cases hgen
    exact hk
  · intro hk
    refine ⟨_, _, reply, later ++ .call (.deleteKey key) last :: told.map .event, ?_, hk⟩
    rw [Call.wholeSteps, List.append_assoc]
    rfl

end Whole

namespace Custody

variable {σ : Type} {resident : σ → Set String} {c : Collaborators σ}

/-- Quiet steps change no keys. -/
theorem after_quiet (h : Custody resident c) {steps : List Step}
    (hq : ∀ step ∈ steps, step.Quiet) (s : σ) :
    resident (c.after s (Step.queries steps)) = resident s := by
  induction steps generalizing s with
  | nil => rfl
  | cons step steps ih =>
    have hstep := hq step List.mem_cons_self
    have hl : ∀ step ∈ steps, step.Quiet := fun x hx => hq x (List.mem_cons_of_mem _ hx)
    cases step with
    | drew number => exact hstep.elim
    | event e => exact ih hl s
    | call q reply => exact (ih hl _).trans (h.other q s hstep)

/-- A generation changes no key but its own. -/
theorem generate_diff (h : Custody resident c) (s : σ) (key : String) (params : AuthorizationSet) :
    resident (c.reply (.generateKey key params) s).2 \ {key} = resident s \ {key} := by
  ext k
  constructor
  · rintro ⟨hk, hne⟩
    exact ⟨(h.adds s key params hk).resolve_left hne, hne⟩
  · rintro ⟨hk, hne⟩
    exact ⟨h.keeps s key params hk, hne⟩

/-- **The outcome of a call.**  Steps in the form of a call, with the replies and the number that
they get, have an outcome under the alias of the next number. -/
theorem outcome (h : Custody resident c) {keyOf : UInt64 → String} {s : σ} {n : AliasSequence}
    {steps : List Step} (hf : Call.Form keyOf steps) (ha : c.Answers s steps)
    (hg : n.Gives steps) : Outcome resident c s (keyOf n.next) steps := by
  cases hf with
  | quiet hq => exact .idle (numbers_eq_nil hq) (deletions_eq_nil hq) (h.after_quiet hq s)
  | @refused early he number reply unconsented =>
    -- the beginning draws nothing, so the number is the next one
    obtain ⟨-, hnumber, -⟩ := (AliasSequence.gives_append _ _ _).mp hg
    rw [after_of_quiet he] at hnumber
    subst hnumber
    obtain ⟨-, hdelete, -⟩ := (c.answers_append _ _ _).mp ha
    refine .refused ?_ ?_ ?_
    · rw [numbers_append]
      exact List.append_ne_nil_of_right_ne_nil _ (List.cons_ne_nil _ _)
    · rw [deletions_append, deletions_eq_nil he]
      exact congrArg (fun consent => [(keyOf n.next, consent)]) (consents_eq_false unconsented)
    · rw [queries_append, c.after_append]
      exact (h.refused _ _ (hdelete ▸ unconsented)).trans (h.after_quiet he s)
  | @whole early later he number reply hl last told =>
    obtain ⟨-, hnumber, -⟩ := (AliasSequence.gives_append _ _ _).mp hg
    rw [after_of_quiet he] at hnumber
    subst hnumber
    obtain ⟨-, hcleared, -, hrest⟩ := (c.answers_append _ _ _).mp ha
    obtain ⟨-, hlast, -⟩ := (c.answers_append _ _ _).mp hrest
    -- the states after the first deletion, the generation and the steps that follow it
    let key := keyOf n.next
    let s₂ := (c.reply (.deleteKey key) (c.after s (Step.queries early))).2
    let s₃ := (c.reply (.generateKey key Attest.temporaryKeyParams) s₂).2
    let s₄ := c.after s₃ (Step.queries later)
    have hr₂ : resident s₂ = resident s \ {key} :=
      (h.consented _ _ hcleared).trans (congrArg (· \ {key}) (h.after_quiet he s))
    have hr₃ : resident s₃ \ {key} = resident s \ {key} := by
      rw [h.generate_diff, hr₂, sdiff_idem]
    have hr₄ : resident s₄ = resident s₃ := h.after_quiet hl s₃
    have hdeletions : Step.deletions (Call.wholeSteps key early n.next reply later last told) =
        [(key, true), (key, consents last)] := deletions_whole he hl
    by_cases consented : last = .ok true
    · rw [consented] at hlast hdeletions ⊢
      refine .removed numbers_whole_ne_nil hdeletions ?_
      rw [after_whole, h.consented _ _ hlast, hr₄, hr₃]
    · have hr₅ : resident (c.reply (.deleteKey key) s₄).2 = resident s₃ :=
        (h.refused _ _ (hlast ▸ consented)).trans hr₄
      rw [consents_eq_false consented] at hdeletions
      refine .leftBehind numbers_whole_ne_nil hdeletions ?_ ?_
      · rw [after_whole, hr₅, hr₃]
      · rw [after_whole, hr₅, leavesKey_whole he hl]

end Custody

end DeviceAttest
