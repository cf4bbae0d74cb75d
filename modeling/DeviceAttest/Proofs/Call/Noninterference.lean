import DeviceAttest.Proofs.Call.Interleaving

/-!
# Calls do not disturb one another

Calls that share a store of keys and the alias sequence go on as each would alone
(`calls_undisturbed`), as long as no key of the process was held before and the numbers do not run
out.  What `Undisturbed` says of a schedule it says of every moment of it, since whatever has been
scheduled so far is a schedule, too.

A call is compared with itself alone by its run against a single bit: the steps of a thread have
their answers from such a bit by the invariant of interleaved calls (`Interleaved.own_run`), and so
do those of a call that runs alone on the store (`Caller.solo_own`).
-/

namespace DeviceAttest

open Program

/-- The run of a call alone, from a store and a place in the alias sequence. -/
def Caller.solo {ρ : Type} (process : ProcessLabel) (caller : Caller ρ) (store : String → Bool)
    (n : AliasSequence) : Run ((String → Bool) × ρ) (Except Failure Chain) :=
  (caller.program process).run caller.conduct.shared (store, caller.memory) n

/-- The run of a call against the single bit for its key, which is not held before. -/
def Caller.ownRun {ρ : Type} (process : ProcessLabel) (caller : Caller ρ) (n : AliasSequence) :
    Run (Bool × ρ) (Except Failure Chain) :=
  (caller.program process).run caller.conduct.own (false, caller.memory) n

/-- Alone on a store, a call goes on as by the bit for its key. -/
theorem Caller.solo_own {ρ : Type} {process : ProcessLabel} {caller : Caller ρ}
    {store : String → Bool} {n : AliasSequence}
    (clean : store (caller.key process n.next) = false) :
    let solo := caller.solo process store n
    let own := caller.ownRun process n
    solo.steps = own.steps ∧ solo.value = own.value ∧
      solo.state.1 (caller.key process n.next) = own.state.1 := by
  intro solo own
  have hpath : Path (caller.program process) solo.steps solo.value :=
    path_run caller.conduct.shared _ (store, caller.memory) n
  have hgives : n.Gives solo.steps := gives_run caller.conduct.shared _ (store, caller.memory) n
  -- the call draws one number, so one key is all that it names
  have hkeys : ∀ step ∈ solo.steps, ∀ k, step.key? = some k → k = caller.key process n.next :=
    fun step hs k hk => key_of_run hs hk
  have hans : caller.conduct.own.Answers (false, caller.memory) solo.steps := by
    have h := (caller.conduct.shared_answers hkeys store caller.memory).mp
      (answers_run caller.conduct.shared _ (store, caller.memory) n)
    rwa [clean] at h
  have hrun : own = _ := run_eq_of_leads caller.conduct.own hpath hans hgives
  have hstate : solo.state = caller.conduct.shared.after (store, caller.memory)
      (Step.queries solo.steps) :=
    state_run caller.conduct.shared _ (store, caller.memory) n
  rw [caller.conduct.shared_after hkeys, clean] at hstate
  refine ⟨?_, ?_, ?_⟩
  · rw [hrun]
    exact (List.append_nil _).symm
  · rw [hrun]
    rfl
  · rw [hrun, hstate]
    exact Function.update_self ..

namespace Interleaved

variable {ι ρ : Type} [DecidableEq ι] {process : ProcessLabel} {callers : ι → Caller ρ}
  {store : String → Bool} {n : AliasSequence} {sys : System ι ρ}

/-- Among others, a call goes on as by the bit for its key, under another number. -/
theorem own_run (h : Interleaved process callers store n sys) (i : ι) (m : AliasSequence) :
    let own := (callers i).ownRun process m
    ∃ number, (∀ k ∈ sys.numbers i, k = number) ∧
      let a := callAlias process (callers i).settings number
      let b := callAlias process (callers i).settings m.next
      (sys.steps i).map (Step.rename a b) <+: own.steps ∧
        ∀ r, (sys.threads i).rest = .done r →
          (sys.steps i).map (Step.rename a b) = own.steps ∧ renameResult a b r = own.value ∧
            own.state = (callers i).conduct.own.after (false, (callers i).memory)
              (Step.queries (sys.steps i)) := by
  intro own
  -- some way in which the call may end
  obtain ⟨later, r, hlater⟩ := (sys.threads i).rest.exists_path
  have hpath : Path ((callers i).program process) (sys.steps i ++ later) r :=
    (h.leads i).trans hlater
  obtain ⟨number, hnumbers, hrenamed, hdrawn⟩ := path_rename hpath m.next
  refine ⟨number, fun k hk => ?_, ?_⟩
  · have hmem : k ∈ Step.numbers (sys.steps i ++ later) := by
      rw [numbers_append]
      exact List.mem_append_left _ hk
    rcases hnumbers with ⟨hnil, -⟩ | hone
    · rw [hnil] at hmem
      exact absurd hmem List.not_mem_nil
    · rwa [hone, List.mem_singleton] at hmem
  · intro a b
    -- the steps so far, renamed, have the number and the replies that the run against the bit gets
    rw [List.map_append] at hrenamed hdrawn
    obtain ⟨rest, hfront, -⟩ := hrenamed.split
    have hgives := ((AliasSequence.gives_append _ _ _).mp (AliasSequence.gives_of_numbers hdrawn)).1
    have hans := ((callers i).conduct.own_answers_rename a b _ _).mpr (h.answers i)
    refine ⟨?_, fun r' hdone => ?_⟩
    · have hrun : own = _ := run_eq_of_leads (callers i).conduct.own hfront hans hgives
      rw [hrun]
      exact List.prefix_append _ _
    · rw [hdone] at hlater
      obtain ⟨rfl, rfl⟩ := path_done.mp hlater
      rw [List.map_nil, List.append_nil] at hrenamed
      have hrun : own = _ := run_eq_of_leads (callers i).conduct.own hrenamed hans hgives
      rw [hrun]
      exact ⟨(List.append_nil _).symm, rfl, (callers i).conduct.own_after_rename a b _ _⟩

/-- Whether the key of a call is held is what its own steps have made of it. -/
theorem store_key (h : Interleaved process callers store n sys) {i : ι} {number : UInt64}
    (hmem : number ∈ sys.numbers i) :
    sys.store ((callers i).key process number) =
      ((callers i).conduct.own.after (false, (callers i).memory)
        (Step.queries (sys.steps i))).1 := by
  obtain ⟨held, hold⟩ := h.holds i
  rw [hold.store number hmem, hold.after]

/-- A call that has ended has made of its key what it makes of it alone. -/
theorem store_key_solo (h : Interleaved process callers store n sys) {i : ι}
    {r : Except Failure Chain} (hdone : (sys.threads i).rest = .done r) {m : AliasSequence}
    (hclean : store ((callers i).key process m.next) = false) {number : UInt64}
    (hmem : number ∈ sys.numbers i) :
    sys.store ((callers i).key process number) =
      ((callers i).solo process store m).state.1 ((callers i).key process m.next) := by
  obtain ⟨_, -, -, hended⟩ := h.own_run i m
  obtain ⟨-, -, hstate⟩ := hended r hdone
  obtain ⟨-, -, hsolo⟩ := Caller.solo_own hclean
  rw [hsolo, hstate, h.store_key hmem]

/-- The key that a call has named is that of a number that it has drawn. -/
theorem key_of_mem (h : Interleaved process callers store n sys) {i : ι} {step : Step}
    (hs : step ∈ sys.steps i) {key : String} (hk : step.key? = some key) :
    ∃ number ∈ sys.numbers i, key = (callers i).key process number := by
  obtain ⟨front, back, hsplit⟩ := List.append_of_mem hs
  obtain ⟨number, hnumbers, heq⟩ := key_of_leads (h.leads i) hsplit hk
  refine ⟨number, ?_, heq⟩
  rw [System.numbers, hsplit, numbers_append, hnumbers]
  exact List.mem_append_left _ (List.mem_singleton.mpr rfl)

/-- Calls that name the same key are one call, if no number is drawn twice. -/
theorem eq_of_key (h : Interleaved process callers store n sys)
    (hn : (Step.numbers sys.allSteps).Nodup) {i j : ι} {step step' : Step}
    (hi : step ∈ sys.steps i) (hj : step' ∈ sys.steps j) {key : String}
    (hk : step.key? = some key) (hk' : step'.key? = some key) : i = j := by
  obtain ⟨number, hmem, rfl⟩ := h.key_of_mem hi hk
  obtain ⟨number', hmem', heq⟩ := h.key_of_mem hj hk'
  by_cases hne : number = number'
  · subst hne
    exact System.eq_of_mem_numbers hn hmem hmem'
  · exact absurd heq (Caller.key_ne hne)

/-- When every call that has drawn a number has ended, the keys held are those from before and
those that calls leave alone. -/
theorem store_eq_true_iff (h : Interleaved process callers store n sys)
    (hclean : ∀ i number, store ((callers i).key process number) = false)
    (hended : ∀ i, sys.numbers i ≠ [] → ∃ r, (sys.threads i).rest = .done r)
    (m : ι → AliasSequence) (key : String) :
    sys.store key = true ↔
      store key = true ∨ ∃ i number, number ∈ sys.numbers i ∧
        key = (callers i).key process number ∧
        ((callers i).solo process store (m i)).state.1
          ((callers i).key process (m i).next) = true := by
  have hsolo : ∀ i, ∀ number ∈ sys.numbers i, sys.store ((callers i).key process number) =
      ((callers i).solo process store (m i)).state.1
        ((callers i).key process (m i).next) := by
    intro i number hmem
    obtain ⟨r, hdone⟩ := hended i (List.ne_nil_of_mem hmem)
    exact h.store_key_solo hdone (hclean i (m i).next) hmem
  constructor
  · intro hheld
    by_cases hdrawn : ∃ i, ∃ number ∈ sys.numbers i, (callers i).key process number = key
    · obtain ⟨i, number, hmem, rfl⟩ := hdrawn
      exact .inr ⟨i, number, hmem, rfl, hsolo i number hmem ▸ hheld⟩
    · refine .inl ?_
      rw [← h.untouched key fun i number hmem heq => hdrawn ⟨i, number, hmem, heq⟩]
      exact hheld
  · rintro (hheld | ⟨i, number, hmem, rfl, hheld⟩)
    · -- a key from before is none that a call has drawn
      rw [h.untouched key fun i number hmem heq => ?_]
      · exact hheld
      · rw [← heq, hclean] at hheld
        exact absurd hheld Bool.false_ne_true
    · rw [hsolo i number hmem]
      exact hheld

/-- A key whose deletion has been consented to last is not held. -/
theorem released (h : Interleaved process callers store n sys) {i : ι} {front back : List Step}
    {key : String} (hsteps : sys.steps i = front ++ .call (.deleteKey key) (.ok true) :: back)
    (hback : Step.queries back = []) : sys.store key = false := by
  have hdelete : .call (.deleteKey key) (.ok true) ∈ sys.steps i := by
    rw [hsteps]
    exact List.mem_append_right _ List.mem_cons_self
  obtain ⟨number, hmem, heq⟩ := h.key_of_mem hdelete rfl
  have ha := h.answers i
  rw [heq, h.store_key hmem]
  rw [hsteps] at ha ⊢
  exact (callers i).conduct.not_held_of_consent ha hback

/-- From a generation to the attestation of the same call its key stays as it is. -/
theorem kept {i : ι} {between : List ι}
    (h' : Interleaved process callers store n (sys.step callers i))
    (h : Interleaved process callers store n ((sys.step callers i).run callers between))
    {key key' : String} {params params' : AuthorizationSet}
    {next : (Query.generateKey key params).Reply → Program (Except Failure Chain)}
    {next' : (Query.attestKey key' params').Reply → Program (Except Failure Chain)}
    (hgenerate : (sys.threads i).rest = .ask (.generateKey key params) next)
    (hattest : (((sys.step callers i).run callers between).threads i).rest =
      .ask (.attestKey key' params') next') :
    key' = key ∧
      ((sys.step callers i).run callers between).store key = (sys.step callers i).store key := by
  obtain ⟨reply, hstep⟩ := sys.steps_step_ask callers hgenerate
  obtain ⟨later, hlater⟩ := (sys.step callers i).steps_run callers between i
  obtain ⟨early, reply', e, hsteps, hearly⟩ := leads_attest (hattest ▸ h.leads i)
  have hgen : (Step.call (.generateKey key params) reply).Generates := trivial
  -- there is one generation, so what follows it is the event that precedes the attestation
  have hwhole : sys.steps i ++ .call (.generateKey key params) reply :: later =
      early ++ .call (.generateKey key' Attest.temporaryKeyParams) reply' :: [.event e] := by
    rw [← hsteps, hlater, hstep, List.append_assoc]
    rfl
  have hlast : ∀ step ∈ [Step.event e], ¬ step.Generates :=
    List.forall_mem_singleton.mpr not_false
  obtain ⟨-, hsame, rfl⟩ := split_inj hearly hlast hgen hwhole
  have hkey : key = key' := (Query.generateKey.inj (Step.call.inj hsame).1).1
  have hmem : .call (.generateKey key params) reply ∈ (sys.step callers i).steps i := by
    rw [hstep]
    exact List.mem_append_right _ List.mem_cons_self
  obtain ⟨number, hnumber, heq⟩ := h'.key_of_mem hmem rfl
  have hnumber' : number ∈ ((sys.step callers i).run callers between).numbers i := by
    rw [System.numbers, hlater, numbers_append]
    exact List.mem_append_left _ hnumber
  refine ⟨hkey.symm, ?_⟩
  rw [heq, h.store_key hnumber', h'.store_key hnumber, hlater, queries_append]
  exact congrArg (fun queries => ((callers i).conduct.own.after _ queries).1)
    (List.append_nil _)

end Interleaved

/-- What calls on a shared store see of one another after a schedule. -/
structure Undisturbed {ι ρ : Type} [DecidableEq ι] (process : ProcessLabel)
    (callers : ι → Caller ρ) (store : String → Bool) (n : AliasSequence)
    (schedule : List ι) : Prop where
  /-- No two calls name the same key. -/
  apart : ∀ i j key step step',
    let sys := (System.start process callers store n).run callers schedule
    (i, step) ∈ sys.log → (j, step') ∈ sys.log → step.key? = some key → step'.key? = some key →
      i = j
  /-- A call that is about to generate a key finds nothing under it. -/
  vacant : ∀ i key params next,
    let sys := (System.start process callers store n).run callers schedule
    (sys.threads i).rest = .ask (.generateKey key params) next → sys.store key = false
  /-- Whether a key is held has not changed between its generation and its attestation. -/
  kept : ∀ front i between key params next key' params' next',
    schedule = front ++ i :: between →
    let before := (System.start process callers store n).run callers front
    let generated := before.step callers i
    let sys := (System.start process callers store n).run callers schedule
    (before.threads i).rest = .ask (.generateKey key params) next →
    (sys.threads i).rest = .ask (.attestKey key' params') next' →
      key' = key ∧ sys.store key = generated.store key
  /-- A key is not held if its deletion was the last question of its call, and consented to. -/
  released : ∀ i front key back,
    let sys := (System.start process callers store n).run callers schedule
    sys.steps i = front ++ .call (.deleteKey key) (.ok true) :: back → Step.queries back = [] →
      sys.store key = false
  /-- Apart from the number, a call has done what it does alone, and a call that has ended has
  done all of it and has the same result. -/
  alone : ∀ i m,
    let sys := (System.start process callers store n).run callers schedule
    let solo := (callers i).solo process store m
    ∃ number, (∀ k ∈ sys.numbers i, k = number) ∧
      let a := callAlias process (callers i).settings number
      let b := callAlias process (callers i).settings m.next
      (sys.steps i).map (Step.rename a b) <+: solo.steps ∧
        ∀ r, (sys.threads i).rest = .done r →
          (sys.steps i).map (Step.rename a b) = solo.steps ∧ renameResult a b r = solo.value
  /-- Once no call is underway, the keys are those from before and those that calls leave alone. -/
  residents :
    let sys := (System.start process callers store n).run callers schedule
    (∀ i, sys.numbers i ≠ [] → ∃ r, (sys.threads i).rest = .done r) →
    ∀ (m : ι → AliasSequence) key, sys.store key = true ↔
      store key = true ∨ ∃ i number, number ∈ sys.numbers i ∧
        key = (callers i).key process number ∧
        ((callers i).solo process store (m i)).state.1 ((callers i).key process (m i).next) = true

/-- **Calls do not disturb one another**, whatever the schedule. -/
theorem calls_undisturbed {ι ρ : Type} [DecidableEq ι] (process : ProcessLabel)
    (callers : ι → Caller ρ) (store : String → Bool) (n : AliasSequence) (schedule : List ι)
    (clean : ∀ a : KeyAlias, a.process = process → store a.text = false)
    (hlt : (Step.numbers ((System.start process callers store n).run callers
      schedule).allSteps).length < 2 ^ 64) :
    Undisturbed process callers store n schedule := by
  have h := interleaved_run clean hlt
  have hnodup := h.gives.nodup hlt
  have hclean (i : ι) (number : UInt64) : store ((callers i).key process number) = false :=
    clean (callAlias process (callers i).settings number) rfl
  constructor
  case apart =>
    intro i j key step step' sys hi hj hk hk'
    exact h.eq_of_key hnodup (System.mem_steps.mpr hi) (System.mem_steps.mpr hj) hk hk'
  case vacant =>
    intro i key params next sys hrest
    obtain ⟨front, hsteps⟩ := leads_generate (hrest ▸ h.leads i)
    exact h.released hsteps rfl
  case released =>
    intro i front key back sys hsteps hback
    exact h.released hsteps hback
  case kept =>
    intro front i between key params next key' params' next' hschedule before generated sys
      hgenerate hattest
    have hsys : generated.run callers between = sys := by
      show _ = (System.start process callers store n).run callers schedule
      rw [hschedule, System.run_append]
      rfl
    have hgenerated : (System.start process callers store n).run callers (front ++ [i]) =
        generated :=
      System.run_append callers _ front [i]
    have hlt' : (Step.numbers generated.allSteps).length < 2 ^ 64 :=
      Nat.lt_of_le_of_lt (System.numbers_run_le callers generated between) (hsys.symm ▸ hlt)
    have h' : Interleaved process callers store n generated :=
      hgenerated ▸ interleaved_run clean (hgenerated.symm ▸ hlt')
    rw [← hsys] at hattest ⊢
    exact h'.kept (hsys.symm ▸ h) hgenerate hattest
  case alone =>
    intro i m sys solo
    obtain ⟨hsteps, hvalue, -⟩ := Caller.solo_own (hclean i m.next)
    rw [hsteps, hvalue]
    obtain ⟨number, hnumbers, hprefix, hended⟩ := h.own_run i m
    exact ⟨number, hnumbers, hprefix, fun r hdone =>
      ⟨(hended r hdone).1, (hended r hdone).2.1⟩⟩
  case residents =>
    intro sys hended m key
    exact h.store_eq_true_iff hclean hended m key

/-- A conduct that consents to everything and gives an empty chain. -/
def Conduct.willing : Conduct Unit where
  telephony _ := (.ok false, ())
  serial _ := (.ok (.ok "S1"), ())
  imei _ _ := (.ok (.ok none), ())
  meid _ := (.ok (.ok none), ())
  buildProperties _ := (.ok .empty, ())
  delete _ _ := (.ok true, false, ())
  generate _ _ _ := (.ok (.ok ⟨.empty, .empty⟩), true, ())
  attest _ held _ := (.ok (if held then .ok [] else .error .keyNotFound), held, ())
  decode _ _ := (.ok (.error .empty), ())
  not_held_of_delete _ _ _ := rfl

theorem two_calls_undisturbed :
    let process := ProcessLabel.ofNat 7
    let callers : Bool → Caller Unit := fun i =>
      ⟨.willing, (), ⟨if i then "a" else "b", 0⟩, .ofTypes [] []⟩
    let store : String → Bool := fun _ => false
    let schedule := (List.replicate 12 [true, false]).flatten
    (∀ a : KeyAlias, a.process = process → store a.text = false) ∧
      (Step.numbers ((System.start process callers store .start).run callers
        schedule).allSteps).length < 2 ^ 64 ∧
      Undisturbed process callers store .start schedule := by
  intro process callers store schedule
  have hlt : (Step.numbers ((System.start process callers store .start).run callers
      schedule).allSteps).length < 2 ^ 64 := by
    decide +kernel
  exact ⟨fun _ _ => rfl, hlt,
    calls_undisturbed process callers store .start schedule (fun _ _ => rfl) hlt⟩

end DeviceAttest
