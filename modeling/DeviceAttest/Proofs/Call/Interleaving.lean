import DeviceAttest.Proofs.Alias
import DeviceAttest.Proofs.Call.Underway
import Mathlib.Data.List.Induction

/-!
# Interleaved calls

Any number of calls share a store of keys and the alias sequence.  Each has a conduct of its own
and goes on step by step, in any order: a schedule says whose turn it is, and a step of a call is
one of its program.  The log records every step with the call that took it.

`Interleaved` is the invariant: the steps of each call lead to what remains of it and are answered
as by a single bit, which is the one that the store has for the call's key (`System.Holds`), and
apart from such keys the store is as it was.

* `System.step_cases`: what a step can do;
* `Interleaved.moved`: a step keeps the invariant, for the call that takes it
  (`Interleaved.holds_moved_self`) and for the others (`Interleaved.holds_moved_of_ne`);
* `interleaved_run`: the invariant holds after every schedule.
-/

namespace DeviceAttest

open Program

/-- A call among others. -/
structure Caller (ρ : Type) where
  conduct : Conduct ρ
  memory : ρ
  settings : AttestationSettings
  request : Request

/-- What a caller does. -/
def Caller.program {ρ : Type} (process : ProcessLabel) (caller : Caller ρ) :
    Program (Except Failure Chain) :=
  (attest process caller.settings caller.request).run

/-- The key that a caller derives from a number. -/
def Caller.key {ρ : Type} (process : ProcessLabel) (caller : Caller ρ) (number : UInt64) : String :=
  aliasText process caller.settings number

/-- The keys of different numbers differ, whoever draws them. -/
theorem Caller.key_ne {ρ : Type} {process : ProcessLabel} {caller caller' : Caller ρ}
    {number number' : UInt64} (h : number ≠ number') :
    caller.key process number ≠ caller'.key process number' := fun heq =>
  h (congrArg KeyAlias.number (KeyAlias.text_injective heq))

/-- What remains of a call, and the memory of its collaborators. -/
structure Thread (ρ : Type) where
  rest : Program (Except Failure Chain)
  memory : ρ

/-- Calls on a shared store, with the log of their steps. -/
structure System (ι ρ : Type) where
  store : String → Bool
  sequence : AliasSequence
  threads : ι → Thread ρ
  log : List (ι × Step)

namespace System

variable {ι ρ : Type}

/-- All steps, in order. -/
def allSteps (sys : System ι ρ) : List Step := sys.log.map Prod.snd

theorem eq_of_mem_log {log : List (ι × Step)} (h : (Step.numbers (log.map Prod.snd)).Nodup)
    {i j : ι} {number : UInt64} (hi : (i, .drew number) ∈ log) (hj : (j, .drew number) ∈ log) :
    i = j := by
  induction log with
  | nil => exact absurd hi List.not_mem_nil
  | cons entry log ih =>
    obtain ⟨l, s⟩ := entry
    have hmem {k : ι} (hk : (k, .drew number) ∈ log) :
        number ∈ Step.numbers (log.map Prod.snd) :=
      List.mem_filterMap.mpr ⟨.drew number, List.mem_map.mpr ⟨_, hk, rfl⟩, rfl⟩
    have htail : (Step.numbers (log.map Prod.snd)).Nodup :=
      h.sublist ((List.sublist_cons_self _ _).filterMap _)
    rcases List.mem_cons.mp hi with hi₁ | hi₁
    · rcases List.mem_cons.mp hj with hj₁ | hj₁
      · exact congrArg Prod.fst (hi₁.trans hj₁.symm)
      · obtain ⟨rfl, rfl⟩ := Prod.mk.inj hi₁
        exact absurd (hmem hj₁) (List.nodup_cons.mp h).1
    · rcases List.mem_cons.mp hj with hj₁ | hj₁
      · obtain ⟨rfl, rfl⟩ := Prod.mk.inj hj₁
        exact absurd (hmem hi₁) (List.nodup_cons.mp h).1
      · exact ih htail hi₁ hj₁

variable [DecidableEq ι]

/-- The steps of one call, in order. -/
def steps (sys : System ι ρ) (i : ι) : List Step :=
  sys.log.filterMap fun entry => if entry.1 = i then some entry.2 else none

/-- The system before any step. -/
def start (process : ProcessLabel) (callers : ι → Caller ρ) (store : String → Bool)
    (n : AliasSequence) : System ι ρ where
  store := store
  sequence := n
  threads i := ⟨(callers i).program process, (callers i).memory⟩
  log := []

/-- One step of a call; a call that has ended stays as it is. -/
def step (callers : ι → Caller ρ) (sys : System ι ρ) (i : ι) : System ι ρ :=
  let thread := sys.threads i
  match thread.rest with
  | .done _        => sys
  | .ask q next    =>
    let (reply, store, memory) := (callers i).conduct.shared.reply q (sys.store, thread.memory)
    { store
      sequence := sys.sequence
      threads := Function.update sys.threads i ⟨next reply, memory⟩
      log := sys.log ++ [(i, .call q reply)] }
  | .draw next     =>
    { sys with
      sequence := sys.sequence.advance
      threads := Function.update sys.threads i ⟨next sys.sequence.next, thread.memory⟩
      log := sys.log ++ [(i, .drew sys.sequence.next)] }
  | .report e next =>
    { sys with
      threads := Function.update sys.threads i ⟨next, thread.memory⟩
      log := sys.log ++ [(i, .event e)] }

/-- The system after the steps of a schedule. -/
def run (callers : ι → Caller ρ) (sys : System ι ρ) (schedule : List ι) : System ι ρ :=
  schedule.foldl (step callers) sys

/-- The system after a given step of a call that leaves a given remainder. -/
def moved (callers : ι → Caller ρ) (sys : System ι ρ) (i : ι) (s : Step)
    (rest : Program (Except Failure Chain)) : System ι ρ :=
  let state := (callers i).conduct.shared.after (sys.store, (sys.threads i).memory)
    (Step.queries [s])
  { store := state.1
    sequence := sys.sequence.after [s]
    threads := Function.update sys.threads i ⟨rest, state.2⟩
    log := sys.log ++ [(i, s)] }

/-- **What a step can do**: nothing, if the call has ended; else it leads on with the replies of
the shared store and the next number. -/
theorem step_cases (callers : ι → Caller ρ) (sys : System ι ρ) (i : ι) :
    (∃ r, (sys.threads i).rest = .done r ∧ step callers sys i = sys) ∨
      ∃ s rest, Leads (sys.threads i).rest [s] rest ∧
        (callers i).conduct.shared.Answers (sys.store, (sys.threads i).memory) [s] ∧
        sys.sequence.Gives [s] ∧ step callers sys i = sys.moved callers i s rest := by
  cases hrest : (sys.threads i).rest with
  | done r =>
    refine .inl ⟨r, rfl, ?_⟩
    simp only [step, hrest]
  | ask q next =>
    let answer := (callers i).conduct.shared.reply q (sys.store, (sys.threads i).memory)
    refine .inr ⟨.call q answer.1, next answer.1, .ask _ (.refl _), ⟨rfl, trivial⟩, trivial, ?_⟩
    simp only [step, hrest]
    rfl
  | draw next =>
    refine .inr ⟨.drew sys.sequence.next, next sys.sequence.next, .draw _ (.refl _), trivial,
      ⟨rfl, trivial⟩, ?_⟩
    simp only [step, hrest]
    rfl
  | report e next =>
    refine .inr ⟨.event e, next, .report (.refl _), trivial, trivial, ?_⟩
    simp only [step, hrest]
    rfl

/-! ### The log -/

section

variable (callers : ι → Caller ρ) (sys : System ι ρ) (i : ι) (s : Step)
  (rest : Program (Except Failure Chain))

@[simp] theorem allSteps_moved :
    (sys.moved callers i s rest).allSteps = sys.allSteps ++ [s] := by
  simp [moved, allSteps]

@[simp] theorem steps_moved_self :
    (sys.moved callers i s rest).steps i = sys.steps i ++ [s] := by
  simp [moved, steps]

theorem steps_moved_of_ne {j : ι} (h : j ≠ i) :
    (sys.moved callers i s rest).steps j = sys.steps j := by
  simp [moved, steps, h.symm]

end

theorem mem_steps {sys : System ι ρ} {i : ι} {s : Step} : s ∈ sys.steps i ↔ (i, s) ∈ sys.log := by
  rw [steps, List.mem_filterMap]
  constructor
  · rintro ⟨⟨j, s'⟩, hlog, hs⟩
    by_cases h : j = i
    · rw [if_pos h] at hs
      cases hs
      exact h ▸ hlog
    · rw [if_neg h] at hs
      exact absurd hs.symm (Option.some_ne_none s)
  · intro hlog
    exact ⟨_, hlog, if_pos rfl⟩

/-- The numbers that a call has drawn. -/
def numbers (sys : System ι ρ) (i : ι) : List UInt64 := Step.numbers (sys.steps i)

theorem mem_numbers {sys : System ι ρ} {i : ι} {number : UInt64} :
    number ∈ sys.numbers i ↔ (i, .drew number) ∈ sys.log := by
  rw [numbers, Step.numbers, List.mem_filterMap, ← mem_steps]
  constructor
  · rintro ⟨s, hs, hnumber⟩
    cases s with
    | drew k =>
      cases hnumber
      exact hs
    | call q reply => exact absurd hnumber.symm (Option.some_ne_none number)
    | event e => exact absurd hnumber.symm (Option.some_ne_none number)
  · intro hs
    exact ⟨_, hs, rfl⟩

theorem mem_numbers_allSteps {sys : System ι ρ} {i : ι} {number : UInt64}
    (h : number ∈ sys.numbers i) : number ∈ Step.numbers sys.allSteps :=
  List.mem_filterMap.mpr
    ⟨.drew number, List.mem_map.mpr ⟨_, mem_numbers.mp h, rfl⟩, rfl⟩

theorem mem_numbers_moved {sys : System ι ρ} {i : ι} {number : UInt64}
    (h : number ∈ sys.numbers i) (callers : ι → Caller ρ) (j : ι) (s : Step)
    (rest : Program (Except Failure Chain)) : number ∈ (sys.moved callers j s rest).numbers i :=
  mem_numbers.mpr (List.mem_append_left _ (mem_numbers.mp h))

/-- A number that is drawn once is drawn by one call. -/
theorem eq_of_mem_numbers {sys : System ι ρ} (h : (Step.numbers sys.allSteps).Nodup) {i j : ι}
    {number : UInt64} (hi : number ∈ sys.numbers i) (hj : number ∈ sys.numbers j) : i = j :=
  eq_of_mem_log h (mem_numbers.mp hi) (mem_numbers.mp hj)

end System

/-! ### The invariant -/

/-- A call has seen its key by a single bit, and the bit is the one that the store has for it. -/
structure System.Holds {ι ρ : Type} [DecidableEq ι] (process : ProcessLabel)
    (callers : ι → Caller ρ) (sys : System ι ρ) (i : ι) (held : Bool) : Prop where
  after : (callers i).conduct.own.after (false, (callers i).memory)
    (Step.queries (sys.steps i)) = (held, (sys.threads i).memory)
  undrawn : sys.numbers i = [] → held = false
  store : ∀ number ∈ sys.numbers i, sys.store ((callers i).key process number) = held

/-- The steps of calls that have come so far from a store and a place in the alias sequence. -/
structure Interleaved {ι ρ : Type} [DecidableEq ι] (process : ProcessLabel)
    (callers : ι → Caller ρ) (store : String → Bool) (n : AliasSequence)
    (sys : System ι ρ) : Prop where
  leads : ∀ i, Leads ((callers i).program process) (sys.steps i) (sys.threads i).rest
  gives : n.Gives sys.allSteps
  sequence : sys.sequence = n.after sys.allSteps
  /-- Each call gets its answers as if there were its own key only, which nobody held before. -/
  answers : ∀ i, (callers i).conduct.own.Answers (false, (callers i).memory) (sys.steps i)
  holds : ∀ i, ∃ held, sys.Holds process callers i held
  /-- Keys that no call has drawn are as they were. -/
  untouched : ∀ key, (∀ i, ∀ number ∈ sys.numbers i, (callers i).key process number ≠ key) →
    sys.store key = store key

namespace Interleaved

variable {ι ρ : Type} [DecidableEq ι] {process : ProcessLabel} {callers : ι → Caller ρ}
  {store : String → Bool} {n : AliasSequence} {sys : System ι ρ}

theorem start (process : ProcessLabel) (callers : ι → Caller ρ) (store : String → Bool)
    (n : AliasSequence) : Interleaved process callers store n (.start process callers store n) where
  leads _ := .refl _
  gives := trivial
  sequence := rfl
  answers _ := trivial
  holds _ := ⟨false, rfl, fun _ => rfl, fun _ h => absurd h List.not_mem_nil⟩
  untouched _ _ := rfl

/-- No key is held under a number that no call has drawn. -/
theorem vacant (h : Interleaved process callers store n sys)
    (clean : ∀ a : KeyAlias, a.process = process → store a.text = false) {number : UInt64}
    (hnew : ∀ i, ∀ k ∈ sys.numbers i, k ≠ number) (i : ι) :
    sys.store ((callers i).key process number) = false := by
  rw [h.untouched _ fun j k hk => Caller.key_ne (hnew j k hk)]
  exact clean (callAlias process (callers i).settings number) rfl

section

variable {i : ι} {s : Step} {rest : Program (Except Failure Chain)}

/-- A step names the key of a number that its call has drawn before. -/
theorem key_of_step (h : Interleaved process callers store n sys)
    (hl : Leads (sys.threads i).rest [s] rest) {key : String} (hk : s.key? = some key) :
    ∃ number ∈ sys.numbers i, key = (callers i).key process number := by
  obtain ⟨number, hnumbers, heq⟩ := key_of_leads ((h.leads i).trans hl) rfl hk
  exact ⟨number, by simp [System.numbers, hnumbers], heq⟩

/-- A call draws one number at most. -/
theorem eq_of_mem_numbers_moved (h : Interleaved process callers store n sys)
    (hl : Leads (sys.threads i).rest [s] rest) {number number' : UInt64}
    (hm : number ∈ (sys.moved callers i s rest).numbers i)
    (hm' : number' ∈ (sys.moved callers i s rest).numbers i) : number = number' := by
  rw [System.numbers, System.steps_moved_self] at hm hm'
  rcases numbers_of_leads ((h.leads i).trans hl) with hnil | ⟨only, hnumbers⟩
  · rw [hnil] at hm
    exact absurd hm List.not_mem_nil
  · rw [hnumbers, List.mem_singleton] at hm hm'
    exact hm.trans hm'.symm

/-- The call that has moved has seen what its step has made of its key. -/
theorem holds_moved_self (h : Interleaved process callers store n sys)
    (clean : ∀ a : KeyAlias, a.process = process → store a.text = false)
    (hl : Leads (sys.threads i).rest [s] rest)
    (hn : (Step.numbers (sys.moved callers i s rest).allSteps).Nodup) {held held' : Bool}
    (hold : sys.Holds process callers i held)
    (hafter : (callers i).conduct.own.after (held, (sys.threads i).memory) (Step.queries [s]) =
      (held', ((sys.moved callers i s rest).threads i).memory))
    (hsame : s.key? = none → held' = held)
    (hstore : ∀ key, (sys.moved callers i s rest).store key =
      if s.key? = some key then held' else sys.store key) :
    (sys.moved callers i s rest).Holds process callers i held' := by
  constructor
  case after =>
    rw [System.steps_moved_self, queries_append, Collaborators.after_append, hold.after, hafter]
  case undrawn =>
    intro hnil
    have hbefore : sys.numbers i = [] :=
      List.eq_nil_iff_forall_not_mem.mpr fun number hmem =>
        absurd (System.mem_numbers_moved hmem callers i s rest) (by simp [hnil])
    have hkey : s.key? = none := Option.eq_none_iff_forall_ne_some.mpr fun key hkey => by
      obtain ⟨number, hmem, -⟩ := h.key_of_step hl hkey
      simp [hbefore] at hmem
    rw [hsame hkey, hold.undrawn hbefore]
  case store =>
    intro number hmem
    rw [hstore]
    by_cases hs : s.key? = some ((callers i).key process number)
    · exact if_pos hs
    · have hone : ∀ k ∈ sys.numbers i, k = number := fun k hk =>
        h.eq_of_mem_numbers_moved hl (System.mem_numbers_moved hk callers i s rest) hmem
      have hkey : s.key? = none := Option.eq_none_iff_forall_ne_some.mpr fun key hkey => by
        obtain ⟨k, hk, rfl⟩ := h.key_of_step hl hkey
        exact hs (hone k hk ▸ hkey)
      rw [if_neg hs, hsame hkey]
      rw [System.numbers, System.steps_moved_self, numbers_append] at hmem
      rcases List.mem_append.mp hmem with hbefore | hdrawn
      · exact hold.store number hbefore
      · -- the number has just been drawn, so its key is one that no call has had before
        have hnew : ∀ j, ∀ k ∈ sys.numbers j, k ≠ number := by
          intro j k hk
          rw [System.allSteps_moved, numbers_append, List.nodup_append] at hn
          exact hn.2.2 k (System.mem_numbers_allSteps hk) number hdrawn
        have hnil : sys.numbers i = [] :=
          List.eq_nil_iff_forall_not_mem.mpr fun k hk => hnew i k hk (hone k hk)
        rw [hold.undrawn hnil, h.vacant clean hnew i]

/-- The other calls hold what they held, since the step names a key of its own call only. -/
theorem holds_moved_of_ne (h : Interleaved process callers store n sys)
    (hl : Leads (sys.threads i).rest [s] rest)
    (hn : (Step.numbers (sys.moved callers i s rest).allSteps).Nodup)
    (hstore : ∀ key, s.key? ≠ some key → (sys.moved callers i s rest).store key = sys.store key)
    {j : ι} (hj : j ≠ i) {held : Bool} (hold : sys.Holds process callers j held) :
    (sys.moved callers i s rest).Holds process callers j held := by
  have hsteps : (sys.moved callers i s rest).steps j = sys.steps j :=
    System.steps_moved_of_ne callers sys i s rest hj
  have hnumbers : (sys.moved callers i s rest).numbers j = sys.numbers j :=
    congrArg Step.numbers hsteps
  constructor
  case after =>
    rw [hsteps, hold.after]
    simp [System.moved, hj]
  case undrawn =>
    rw [hnumbers]
    exact hold.undrawn
  case store =>
    intro number hmem
    rw [hnumbers] at hmem
    rw [hstore, hold.store number hmem]
    intro hkey
    obtain ⟨number', hmem', heq⟩ := h.key_of_step hl hkey
    by_cases hne : number = number'
    · subst hne
      exact hj (System.eq_of_mem_numbers hn (System.mem_numbers_moved hmem callers i s rest)
        (System.mem_numbers_moved hmem' callers i s rest))
    · exact Caller.key_ne hne heq

/-- The invariant is kept by each step of a call that takes a turn. -/
theorem moved (h : Interleaved process callers store n sys)
    (clean : ∀ a : KeyAlias, a.process = process → store a.text = false)
    (hl : Leads (sys.threads i).rest [s] rest)
    (ha : (callers i).conduct.shared.Answers (sys.store, (sys.threads i).memory) [s])
    (hg : sys.sequence.Gives [s])
    (hn : (Step.numbers (sys.moved callers i s rest).allSteps).Nodup) :
    Interleaved process callers store n (sys.moved callers i s rest) := by
  obtain ⟨held, hold⟩ := h.holds i
  -- whatever key the step names, the bit that the store has for it is the call's
  have hk : ∀ key, s.key? = some key → held = sys.store key := by
    intro key hkey
    obtain ⟨number, hmem, rfl⟩ := h.key_of_step hl hkey
    exact (hold.store number hmem).symm
  obtain ⟨hans, held', hafter, hsame, hstore⟩ := (callers i).conduct.own_of_shared hk ha
  have hmoved (key : String) : (sys.moved callers i s rest).store key =
      if s.key? = some key then held' else sys.store key := hstore key
  have hmemory : ((sys.moved callers i s rest).threads i).memory =
      ((callers i).conduct.shared.after (sys.store, (sys.threads i).memory)
        (Step.queries [s])).2 := by
    simp [System.moved]
  constructor
  case leads =>
    intro j
    by_cases hj : j = i
    · subst hj
      rw [System.steps_moved_self]
      simpa [System.moved] using (h.leads j).trans hl
    · rw [System.steps_moved_of_ne _ _ _ _ _ hj]
      simpa [System.moved, hj] using h.leads j
  case gives =>
    rw [System.allSteps_moved, AliasSequence.gives_append, ← h.sequence]
    exact ⟨h.gives, hg⟩
  case sequence =>
    rw [System.allSteps_moved, AliasSequence.after_append, ← h.sequence]
    rfl
  case answers =>
    intro j
    by_cases hj : j = i
    · subst hj
      rw [System.steps_moved_self, Collaborators.answers_append, hold.after]
      exact ⟨h.answers j, hans⟩
    · rw [System.steps_moved_of_ne _ _ _ _ _ hj]
      exact h.answers j
  case holds =>
    intro j
    by_cases hj : j = i
    · subst hj
      exact ⟨held', h.holds_moved_self clean hl hn hold (hmemory ▸ hafter) hsame hmoved⟩
    · obtain ⟨held₁, hold₁⟩ := h.holds j
      exact ⟨held₁, h.holds_moved_of_ne hl hn
        (fun key hkey => (hmoved key).trans (if_neg hkey)) hj hold₁⟩
  case untouched =>
    intro key hkey
    rw [hmoved, if_neg]
    · exact h.untouched key fun j number hmem =>
        hkey j number (System.mem_numbers_moved hmem callers i s rest)
    · intro hs
      obtain ⟨number, hmem, heq⟩ := h.key_of_step hl hs
      exact hkey i number (System.mem_numbers_moved hmem callers i s rest) heq.symm

end

/-- The invariant is kept by a turn, whether or not the call has ended. -/
theorem step (h : Interleaved process callers store n sys)
    (clean : ∀ a : KeyAlias, a.process = process → store a.text = false) (i : ι)
    (hlt : (Step.numbers (sys.step callers i).allSteps).length < 2 ^ 64) :
    Interleaved process callers store n (sys.step callers i) := by
  rcases sys.step_cases callers i with ⟨r, -, heq⟩ | ⟨s, rest, hl, ha, hg, heq⟩
  · rwa [heq]
  · rw [heq] at hlt ⊢
    have hgives : n.Gives (sys.moved callers i s rest).allSteps := by
      rw [System.allSteps_moved, AliasSequence.gives_append, ← h.sequence]
      exact ⟨h.gives, hg⟩
    exact h.moved clean hl ha hg (hgives.nodup hlt)

end Interleaved

/-! ### Schedules -/

namespace System

variable {ι ρ : Type} [DecidableEq ι] (callers : ι → Caller ρ) (sys : System ι ρ)

theorem run_append (front back : List ι) :
    sys.run callers (front ++ back) = (sys.run callers front).run callers back :=
  List.foldl_append

/-- The turn of a call that asks a question is that question. -/
theorem steps_step_ask {i : ι} {q : Query} {next : q.Reply → Program (Except Failure Chain)}
    (h : (sys.threads i).rest = .ask q next) :
    ∃ reply, (sys.step callers i).steps i = sys.steps i ++ [.call q reply] := by
  rcases sys.step_cases callers i with ⟨r, hr, -⟩ | ⟨s, rest, hl, -, -, heq⟩
  · rw [h] at hr
    cases hr
  · rw [h] at hl
    cases hl with
    | ask reply _ => exact ⟨reply, by rw [heq, steps_moved_self]⟩

/-- A turn adds to the log. -/
theorem log_step (i : ι) : ∃ later, (sys.step callers i).log = sys.log ++ later := by
  rcases sys.step_cases callers i with ⟨r, -, heq⟩ | ⟨s, rest, -, -, -, heq⟩
  · exact ⟨[], by rw [heq, List.append_nil]⟩
  · exact ⟨[(i, s)], by rw [heq]; rfl⟩

theorem log_run (schedule : List ι) :
    ∃ later, (sys.run callers schedule).log = sys.log ++ later := by
  induction schedule generalizing sys with
  | nil => exact ⟨[], (List.append_nil _).symm⟩
  | cons i schedule ih =>
    obtain ⟨later, hlater⟩ := sys.log_step callers i
    obtain ⟨rest, hrest⟩ := ih (sys.step callers i)
    exact ⟨later ++ rest, by rw [← List.append_assoc, ← hlater]; exact hrest⟩

theorem allSteps_run (schedule : List ι) :
    ∃ later, (sys.run callers schedule).allSteps = sys.allSteps ++ later := by
  obtain ⟨later, hlater⟩ := sys.log_run callers schedule
  exact ⟨later.map Prod.snd, by rw [allSteps, hlater, List.map_append]; rfl⟩

theorem steps_run (schedule : List ι) (i : ι) :
    ∃ later, (sys.run callers schedule).steps i = sys.steps i ++ later := by
  obtain ⟨later, hlater⟩ := sys.log_run callers schedule
  exact ⟨_, by rw [steps, hlater, List.filterMap_append]; rfl⟩

/-- A part of a schedule draws no more than the whole. -/
theorem numbers_run_le (schedule : List ι) :
    (Step.numbers sys.allSteps).length ≤
      (Step.numbers (sys.run callers schedule).allSteps).length := by
  obtain ⟨later, hlater⟩ := sys.allSteps_run callers schedule
  rw [hlater, numbers_append, List.length_append]
  exact Nat.le_add_right _ _

end System

/-- **The invariant holds after every schedule** in which fewer than 2^64 numbers are drawn. -/
theorem interleaved_run {ι ρ : Type} [DecidableEq ι] {process : ProcessLabel}
    {callers : ι → Caller ρ} {store : String → Bool} {n : AliasSequence}
    (clean : ∀ a : KeyAlias, a.process = process → store a.text = false) {schedule : List ι}
    (hlt : (Step.numbers ((System.start process callers store n).run callers
      schedule).allSteps).length < 2 ^ 64) :
    Interleaved process callers store n
      ((System.start process callers store n).run callers schedule) := by
  induction schedule using List.reverseRecOn with
  | nil => exact .start process callers store n
  | append_singleton schedule i ih =>
    rw [System.run_append] at hlt ⊢
    exact Interleaved.step (ih (Nat.lt_of_le_of_lt (System.numbers_run_le callers _ [i]) hlt))
      clean i hlt

end DeviceAttest
