import DeviceAttest.Proofs.Call.Rename
import Mathlib.Logic.Function.Basic

/-!
# Collaborators that act key by key

A `Conduct` says how the collaborators of one call act: by a memory of their own and, where a
question names a key, by whether that key is held.  The key itself is not looked at.

Against a conduct a call can run in two ways: with the one bit for the key that it names
(`Conduct.own`), or on a store that many calls share (`Conduct.shared`).  As long as only one key
is named, both go alike (`shared_answers`, `shared_after`), and under the former a key may be
renamed (`own_answers_rename`, `own_after_rename`).
-/

namespace DeviceAttest

/-- The key that a question names. -/
def Query.key? : Query → Option String
  | deleteKey key     => some key
  | generateKey key _ => some key
  | attestKey key _   => some key
  | _                 => none

/-- The key that a step names to a collaborator. -/
def Step.key? : Step → Option String
  | call q _ => q.key?
  | _        => none

/-- How the collaborators of a call act.  What they do with a key depends on whether it is held,
and says whether it is held afterwards; a key whose deletion is consented to is not. -/
structure Conduct (ρ : Type) where
  telephony : ρ → Except Fault Bool × ρ
  serial : ρ → Except Fault (Except SourceError String) × ρ
  imei : UInt32 → ρ → Except Fault (Except SourceError (Option String)) × ρ
  meid : ρ → Except Fault (Except SourceError (Option String)) × ρ
  buildProperties : ρ → Except Fault BuildProperties × ρ
  delete : Bool → ρ → Except Fault Bool × Bool × ρ
  generate : AuthorizationSet → Bool → ρ →
    Except Fault (Except StatusCode KeyCharacteristics) × Bool × ρ
  attest : AuthorizationSet → Bool → ρ → Except Fault (Except StatusCode (List Bytes)) × Bool × ρ
  decode : Bytes → ρ → Except Fault (Except DecodeError (List Certificate)) × ρ
  not_held_of_delete : ∀ held memory,
    (delete held memory).1 = .ok true → (delete held memory).2.1 = false

namespace Conduct

variable {ρ : Type} (c : Conduct ρ)

/-- Answers a question by the memory and by whether the key that it names is held. -/
def reply : (q : Query) → Bool × ρ → q.Reply × Bool × ρ
  | .telephony, (held, m)            => ((c.telephony m).1, held, (c.telephony m).2)
  | .serial, (held, m)               => ((c.serial m).1, held, (c.serial m).2)
  | .imei slot, (held, m)            => ((c.imei slot m).1, held, (c.imei slot m).2)
  | .meid, (held, m)                 => ((c.meid m).1, held, (c.meid m).2)
  | .buildProperties, (held, m)      => ((c.buildProperties m).1, held, (c.buildProperties m).2)
  | .deleteKey _, (held, m)          => c.delete held m
  | .generateKey _ params, (held, m) => c.generate params held m
  | .attestKey _ params, (held, m)   => c.attest params held m
  | .decode stream, (held, m)        => ((c.decode stream m).1, held, (c.decode stream m).2)

/-- The collaborators of a call that knows one key only. -/
def own : Collaborators (Bool × ρ) := ⟨c.reply⟩

/-- The collaborators of a call on a store of keys. -/
def shared : Collaborators ((String → Bool) × ρ) where
  reply q s :=
    match q.key? with
    | none     =>
      let (reply, _, m) := c.reply q (false, s.2)
      (reply, s.1, m)
    | some key =>
      let (reply, held, m) := c.reply q (s.1 key, s.2)
      (reply, Function.update s.1 key held, m)

/-! ### One question -/

/-- A question that names no key neither looks at one nor changes one. -/
theorem reply_of_key?_eq_none {q : Query} (h : q.key? = none) (held : Bool) (m : ρ) :
    c.reply q (held, m) = ((c.reply q (false, m)).1, held, (c.reply q (false, m)).2.2) := by
  cases q with
  | deleteKey key => exact absurd h (Option.some_ne_none _)
  | generateKey key params => exact absurd h (Option.some_ne_none _)
  | attestKey key params => exact absurd h (Option.some_ne_none _)
  | _ => rfl

theorem shared_reply_none {q : Query} (h : q.key? = none) (s : (String → Bool) × ρ) :
    c.shared.reply q s = ((c.reply q (false, s.2)).1, s.1, (c.reply q (false, s.2)).2.2) := by
  simp only [shared, h]

theorem shared_reply_some {q : Query} {key : String} (h : q.key? = some key)
    (s : (String → Bool) × ρ) :
    c.shared.reply q s = ((c.reply q (s.1 key, s.2)).1,
      Function.update s.1 key (c.reply q (s.1 key, s.2)).2.1, (c.reply q (s.1 key, s.2)).2.2) := by
  simp only [shared, h]

/-- On a store, a question that names no other key than `key` goes by the bit for `key`. -/
theorem shared_reply_eq {q : Query} {key : String} (h : ∀ k, q.key? = some k → k = key)
    (store : String → Bool) (m : ρ) :
    c.shared.reply q (store, m) = ((c.own.reply q (store key, m)).1,
      Function.update store key (c.own.reply q (store key, m)).2.1,
      (c.own.reply q (store key, m)).2.2) := by
  cases hk : q.key? with
  | none =>
    have hr : c.own.reply q (store key, m) = _ := c.reply_of_key?_eq_none hk (store key) m
    rw [c.shared_reply_none hk, hr, Function.update_eq_self]
  | some k =>
    obtain rfl := h k hk
    exact c.shared_reply_some hk (store, m)

/-- A key whose deletion has been consented to last is not held. -/
theorem not_held_of_consent {s : Bool × ρ} {front back : List Step} {key : String}
    (ha : c.own.Answers s (front ++ .call (.deleteKey key) (.ok true) :: back))
    (hback : Step.queries back = []) :
    (c.own.after s (Step.queries (front ++ .call (.deleteKey key) (.ok true) :: back))).1 = false := by
  obtain ⟨-, hconsent, -⟩ := (c.own.answers_append _ _ _).mp ha
  have hqueries : Step.queries (.call (.deleteKey key) (.ok true) :: back) = [.deleteKey key] :=
    congrArg (Query.deleteKey key :: ·) hback
  rw [queries_append, Collaborators.after_append, hqueries]
  exact c.not_held_of_delete _ _ hconsent

/-! ### Steps that name one key -/

/-- Answers on a store are answers by the bit for the one key that is named. -/
theorem shared_answers {key : String} {steps : List Step}
    (h : ∀ step ∈ steps, ∀ k, step.key? = some k → k = key) (store : String → Bool) (m : ρ) :
    c.shared.Answers (store, m) steps ↔ c.own.Answers (store key, m) steps := by
  induction steps generalizing store m with
  | nil => exact Iff.rfl
  | cons step steps ih =>
    have hl := fun x hx => h x (List.mem_cons_of_mem step hx)
    cases step with
    | drew number => exact ih hl store m
    | event e => exact ih hl store m
    | call q reply =>
      have hq := c.shared_reply_eq (h (.call q reply) List.mem_cons_self) store m
      show (c.shared.reply q (store, m)).1 = reply ∧
          c.shared.Answers (c.shared.reply q (store, m)).2 steps ↔
        (c.own.reply q (store key, m)).1 = reply ∧
          c.own.Answers (c.own.reply q (store key, m)).2 steps
      rw [hq, ih hl, Function.update_self]

/-- After such steps the store has changed at that key at most, as the bit for it has. -/
theorem shared_after {key : String} {steps : List Step}
    (h : ∀ step ∈ steps, ∀ k, step.key? = some k → k = key) (store : String → Bool) (m : ρ) :
    c.shared.after (store, m) (Step.queries steps) =
      (Function.update store key (c.own.after (store key, m) (Step.queries steps)).1,
        (c.own.after (store key, m) (Step.queries steps)).2) := by
  induction steps generalizing store m with
  | nil => exact congrArg (·, m) (Function.update_eq_self key store).symm
  | cons step steps ih =>
    have hl := fun x hx => h x (List.mem_cons_of_mem step hx)
    cases step with
    | drew number => exact ih hl store m
    | event e => exact ih hl store m
    | call q reply =>
      have hq := c.shared_reply_eq (h (.call q reply) List.mem_cons_self) store m
      show c.shared.after (c.shared.reply q (store, m)).2 (Step.queries steps) =
        (Function.update store key
            (c.own.after (c.own.reply q (store key, m)).2 (Step.queries steps)).1,
          (c.own.after (c.own.reply q (store key, m)).2 (Step.queries steps)).2)
      rw [hq, ih hl, Function.update_self, Function.update_idem]

/-- A step on a store is one by the bit for the key that it names, if it names one; nothing else
changes. -/
theorem own_of_shared {step : Step} {store : String → Bool} {m : ρ} {held : Bool}
    (hk : ∀ key, step.key? = some key → held = store key)
    (ha : c.shared.Answers (store, m) [step]) :
    let after := c.shared.after (store, m) (Step.queries [step])
    c.own.Answers (held, m) [step] ∧
      ∃ held', c.own.after (held, m) (Step.queries [step]) = (held', after.2) ∧
        (step.key? = none → held' = held) ∧
        ∀ key, after.1 key = if step.key? = some key then held' else store key := by
  have hnone {x : Step} (hx : x.key? = none) (key : String) :
      store key = if x.key? = some key then held else store key := by
    rw [hx, if_neg (Option.some_ne_none key).symm]
  cases step with
  | drew number => exact ⟨trivial, held, rfl, fun _ => rfl, hnone rfl⟩
  | event e => exact ⟨trivial, held, rfl, fun _ => rfl, hnone rfl⟩
  | call q reply =>
    intro after
    have hafter : after = (c.shared.reply q (store, m)).2 := rfl
    obtain ⟨hreply, -⟩ := ha
    cases hq : q.key? with
    | none =>
      rw [c.shared_reply_none hq] at hreply hafter
      have hr := c.reply_of_key?_eq_none hq held m
      rw [hafter]
      exact ⟨⟨(congrArg Prod.fst hr).trans hreply, trivial⟩, held, congrArg Prod.snd hr,
        fun _ => rfl, hnone hq⟩
    | some k =>
      obtain rfl := hk k hq
      rw [c.shared_reply_some hq] at hreply hafter
      rw [hafter]
      refine ⟨⟨hreply, trivial⟩, (c.reply q (store k, m)).2.1, rfl,
        fun h => absurd (hq.symm.trans h) (Option.some_ne_none k), fun key => ?_⟩
      show Function.update store k _ key = if q.key? = some key then _ else store key
      rw [hq, Function.update_apply]
      by_cases hkey : key = k
      · rw [if_pos hkey, if_pos (congrArg some hkey.symm)]
      · rw [if_neg hkey, if_neg fun h => hkey (Option.some.inj h).symm]

/-! ### Renaming -/

/-- Answers by the bit do not depend on the key that is named. -/
theorem own_answers_rename (a b : KeyAlias) (s : Bool × ρ) (steps : List Step) :
    c.own.Answers s (steps.map (Step.rename a b)) ↔ c.own.Answers s steps := by
  induction steps generalizing s with
  | nil => exact Iff.rfl
  | cons step steps ih =>
    cases step with
    | drew number => exact ih s
    | event e => exact ih s
    | call q reply =>
      cases q with
      | _ => exact and_congr_right' (ih _)

theorem own_after_rename (a b : KeyAlias) (s : Bool × ρ) (steps : List Step) :
    c.own.after s (Step.queries (steps.map (Step.rename a b))) =
      c.own.after s (Step.queries steps) := by
  induction steps generalizing s with
  | nil => rfl
  | cons step steps ih =>
    cases step with
    | drew number => exact ih s
    | event e => exact ih s
    | call q reply =>
      cases q with
      | _ => exact ih _

end Conduct

end DeviceAttest
