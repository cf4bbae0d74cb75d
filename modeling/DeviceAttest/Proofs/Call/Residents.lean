import DeviceAttest.Call.Scripted
import DeviceAttest.Proofs.Alias
import DeviceAttest.Proofs.Call.Custody

/-!
# The keys left by a row of calls

Calls of one process run one after another, each with collaborators and settings of its own.  They
share what the keystore holds and the alias sequence.  Every call is an `Episode` of the row.

* `residents_after_calls`: what each call does to the keys, and which keys there are in the end, as
  long as the numbers drawn do not run out;
* `Script.custody`: the scripted keystore is one that this is about.
-/

namespace DeviceAttest

open Program

/-! ### Calls and episodes -/

/-- What a call is asked for. -/
inductive Demand where
  | request (request : Request)
  | codes (codes : List Int32) (challenge : Bytes)

/-- A call with its collaborators. -/
structure Call (σ : Type) where
  collaborators : Collaborators σ
  settings : AttestationSettings
  demand : Demand

namespace Call

variable {σ : Type}

/-- What a call does. -/
def attempt (process : ProcessLabel) (call : Call σ) : Attempt Chain :=
  match call.demand with
  | .request request       => attest process call.settings request
  | .codes codes challenge => attestCodes process call.settings codes challenge

/-- The run of a call from a state and a place in the alias sequence. -/
def run (process : ProcessLabel) (call : Call σ) (s : σ) (n : AliasSequence) :
    Run σ (Except Failure Chain) :=
  (call.attempt process).run.run call.collaborators s n

/-- A call has the form, whatever it is asked for. -/
theorem form_attempt {process : ProcessLabel} {call : Call σ} {steps : List Step}
    {r : Except Failure Chain} (h : Path (call.attempt process).run steps r) :
    Form (aliasText process call.settings) steps := by
  obtain ⟨c, settings, demand⟩ := call
  cases demand with
  | request request => exact form_path h
  | codes codes challenge => exact form_path_codes h

end Call

/-- A call of a row, with the state and the place in the alias sequence at which it begins. -/
structure Episode (σ : Type) where
  call : Call σ
  before : σ
  sequence : AliasSequence

namespace Episode

variable {σ : Type} (process : ProcessLabel) (resident : σ → Set String) (e : Episode σ)

/-- The run of the call. -/
def run : Run σ (Except Failure Chain) := e.call.run process e.before e.sequence

/-- The alias text of the call. -/
def key : String := aliasText process e.call.settings e.sequence.next

/-- The deletions that the call asks for, and whether the keystore consents to them. -/
def deletions : List (String × Bool) := Step.deletions (e.run process).steps

/-- The numbers that the call draws. -/
def numbers : List UInt64 := Step.numbers (e.run process).steps

/-- The generation of the call leaves a key under its alias. -/
def LeavesKey : Prop :=
  DeviceAttest.LeavesKey resident e.call.collaborators e.before (e.key process)
    (e.run process).steps

/-- The keys to whose deletion the keystore consents. -/
def cleared : Set String := {key | (key, true) ∈ e.deletions process}

/-- The key that is left behind, if there is one: it is generated, and its last deletion not
consented to. -/
def left : Set String :=
  {key | key = e.key process ∧ e.deletions process = [(key, true), (key, false)] ∧
    e.LeavesKey process resident}

/-- What a call does to the keys. -/
structure Tidy : Prop where
  /-- The keys under other aliases stay as they are. -/
  others : resident (e.run process).state \ {e.key process} = resident e.before \ {e.key process}
  /-- All deletions are of the call's own key; the second comes only after a first consent. -/
  deletions : e.deletions process = [] ∨ e.deletions process = [(e.key process, false)] ∨
    ∃ removed, e.deletions process = [(e.key process, true), (e.key process, removed)]
  /-- Without an alias nothing changes. -/
  undrawn : e.numbers process = [] → resident (e.run process).state = resident e.before
  /-- Without consent to the first deletion nothing changes. -/
  refused : e.deletions process = [(e.key process, false)] →
    resident (e.run process).state = resident e.before
  /-- With consent to the last deletion no key is left. -/
  removed : e.deletions process = [(e.key process, true), (e.key process, true)] →
    e.key process ∉ resident (e.run process).state
  /-- Without it, the generated key is left. -/
  leftBehind : e.deletions process = [(e.key process, true), (e.key process, false)] →
    (e.key process ∈ resident (e.run process).state ↔ e.LeavesKey process resident)

/-- The outcome of an episode. -/
theorem outcome (h : Custody resident e.call.collaborators) :
    Outcome resident e.call.collaborators e.before (e.key process) (e.run process).steps :=
  h.outcome (Call.form_attempt (path_run _ _ e.before e.sequence))
    (answers_run _ _ e.before e.sequence) (gives_run _ _ e.before e.sequence)

theorem resident_state :
    resident (e.run process).state = resident
      (e.call.collaborators.after e.before (Step.queries (e.run process).steps)) :=
  congrArg resident (state_run _ _ e.before e.sequence)

/-- **What one call does to the keys.** -/
theorem tidy (h : Custody resident e.call.collaborators) : e.Tidy process resident := by
  have hs := e.resident_state process resident
  have hdef : e.deletions process = Step.deletions (e.run process).steps := rfl
  cases e.outcome process resident h with
  | idle hn hd hr =>
    rw [← hdef] at hd
    exact
      { others := by rw [hs, hr]
        deletions := .inl hd
        undrawn := fun _ => hs.trans hr
        refused := fun _ => hs.trans hr
        removed := fun h => by simp [hd] at h
        leftBehind := fun h => by simp [hd] at h }
  | refused hn hd hr =>
    rw [← hdef] at hd
    exact
      { others := by rw [hs, hr]
        deletions := .inr (.inl hd)
        undrawn := fun _ => hs.trans hr
        refused := fun _ => hs.trans hr
        removed := fun h => by simp [hd] at h
        leftBehind := fun h => by simp [hd] at h }
  | removed hn hd hr =>
    rw [← hdef] at hd
    exact
      { others := by rw [hs, hr, sdiff_idem]
        deletions := .inr (.inr ⟨true, hd⟩)
        undrawn := fun h => absurd h hn
        refused := fun h => by simp [hd] at h
        removed := fun _ hk => by
          rw [hs, hr] at hk
          exact hk.2 rfl
        leftBehind := fun h => by simp [hd] at h }
  | leftBehind hn hd hr hk =>
    rw [← hdef] at hd
    exact
      { others := by rw [hs, hr]
        deletions := .inr (.inr ⟨false, hd⟩)
        undrawn := fun h => absurd h hn
        refused := fun h => by simp [hd] at h
        removed := fun h => by simp [hd] at h
        leftBehind := fun _ => by
          rw [hs]
          exact hk }

/-- A call removes what is cleared and adds what is left. -/
theorem resident_eq (h : Custody resident e.call.collaborators) :
    resident (e.run process).state =
      (resident e.before \ e.cleared process) ∪ e.left process resident := by
  have hs := e.resident_state process resident
  have hdef : e.deletions process = Step.deletions (e.run process).steps := rfl
  ext key
  cases e.outcome process resident h with
  | idle hn hd hr => simp [cleared, left, hdef, hd, hs, hr]
  | refused hn hd hr => simp [cleared, left, hdef, hd, hs, hr]
  | removed hn hd hr => simp [cleared, left, hdef, hd, hs, hr]
  | leftBehind hn hd hr hk =>
    have hleft : key ∈ e.left process resident ↔
        key = e.key process ∧ key ∈ resident (e.run process).state := by
      constructor
      · rintro ⟨rfl, -, hleaves⟩
        exact ⟨rfl, hs ▸ hk.mpr hleaves⟩
      · rintro ⟨rfl, hmem⟩
        exact ⟨rfl, hd, hk.mp (hs ▸ hmem)⟩
    -- the call's own key is there if it is left, any other if it was there before
    have hother : key ≠ e.key process →
        (key ∈ resident (e.run process).state ↔ key ∈ resident e.before) := by
      intro hne
      have hdiff := Set.ext_iff.mp hr key
      rw [← hs] at hdiff
      simpa [hne] using hdiff
    rw [Set.mem_union, hleft]
    by_cases hkey : key = e.key process
    · simp [cleared, hdef, hd, hkey]
    · simp [cleared, hdef, hd, hkey, hother hkey]

/-- Deletions are of the key of a number drawn. -/
theorem drawn_of_deletion (h : Custody resident e.call.collaborators) {key : String}
    {consent : Bool} (hk : (key, consent) ∈ e.deletions process) :
    key = e.key process ∧ e.sequence.next ∈ e.numbers process := by
  have hg : e.sequence.Gives (e.run process).steps := gives_run _ _ e.before e.sequence
  have hk' : (key, consent) ∈ Step.deletions (e.run process).steps := hk
  cases e.outcome process resident h with
  | idle hn hd hr => simp [hd] at hk'
  | refused hn hd hr =>
    rw [hd, List.mem_singleton] at hk'
    exact ⟨(Prod.mk.inj hk').1, hg.next_mem hn⟩
  | removed hn hd hr | leftBehind hn hd hr =>
    rw [hd, List.mem_pair] at hk'
    exact ⟨hk'.elim (fun h => (Prod.mk.inj h).1) fun h => (Prod.mk.inj h).1, hg.next_mem hn⟩

end Episode

/-! ### Rows of calls -/

section

variable {σ : Type} (process : ProcessLabel)

/-- The episodes of calls that run one after another. -/
def episodes : List (Call σ) → σ → AliasSequence → List (Episode σ)
  | [], _, _            => []
  | call :: calls, s, n =>
    ⟨call, s, n⟩ :: episodes calls (call.run process s n).state (call.run process s n).sequence

/-- The state after calls that run one after another. -/
def stateAfter : List (Call σ) → σ → AliasSequence → σ
  | [], s, _            => s
  | call :: calls, s, n =>
    stateAfter calls (call.run process s n).state (call.run process s n).sequence

theorem call_mem_of_mem_episodes {calls : List (Call σ)} {s : σ} {n : AliasSequence}
    {e : Episode σ} (he : e ∈ episodes process calls s n) : e.call ∈ calls := by
  induction calls generalizing s n with
  | nil => exact absurd he List.not_mem_nil
  | cons call calls ih =>
    rcases List.mem_cons.mp he with rfl | he
    · exact List.mem_cons_self
    · exact List.mem_cons_of_mem _ (ih he)

/-- The numbers of a row are drawn from one sequence. -/
theorem gives_episodes (calls : List (Call σ)) (s : σ) (n : AliasSequence) :
    n.Gives ((episodes process calls s n).flatMap fun e => (e.run process).steps) := by
  induction calls generalizing s n with
  | nil => trivial
  | cons call calls ih =>
    have hseq : (call.run process s n).sequence = n.after (call.run process s n).steps :=
      sequence_run _ _ s n
    show n.Gives ((call.run process s n).steps ++ (episodes process calls
      (call.run process s n).state (call.run process s n).sequence).flatMap fun e =>
        (e.run process).steps)
    rw [AliasSequence.gives_append, ← hseq]
    exact ⟨gives_run _ _ s n, ih _ _⟩

theorem numbers_flatMap (row : List (Episode σ)) :
    row.flatMap (Episode.numbers process) =
      Step.numbers (row.flatMap fun e => (e.run process).steps) := by
  induction row with
  | nil => rfl
  | cons e row ih => rw [List.flatMap_cons, List.flatMap_cons, numbers_append, ih]; rfl

variable (resident : σ → Set String)

/-- The keys after a row of calls that draw different numbers. -/
theorem mem_resident_stateAfter {calls : List (Call σ)}
    (h : ∀ call ∈ calls, Custody resident call.collaborators) (s : σ) (n : AliasSequence)
    (hn : ((episodes process calls s n).flatMap (Episode.numbers process)).Nodup)
    (key : String) :
    key ∈ resident (stateAfter process calls s n) ↔
      (key ∈ resident s ∧ ∀ e ∈ episodes process calls s n, key ∉ e.cleared process) ∨
        ∃ e ∈ episodes process calls s n, key ∈ e.left process resident := by
  induction calls generalizing s n with
  | nil => simp [stateAfter, episodes]
  | cons call calls ih =>
    -- the first call, and the episodes of the others from where it ends
    let e : Episode σ := ⟨call, s, n⟩
    let row := episodes process calls (e.run process).state (e.run process).sequence
    have hcall : Custody resident e.call.collaborators := h call List.mem_cons_self
    obtain ⟨-, hrow, hne⟩ := List.nodup_append.mp
      (show (e.numbers process ++ row.flatMap (Episode.numbers process)).Nodup from hn)
    have hih := ih (fun call hc => h call (List.mem_cons_of_mem _ hc)) _ _ hrow
    have hfirst := Set.ext_iff.mp (e.resident_eq process resident hcall) key
    -- no later call clears what the first one leaves, for their numbers differ
    have hlater : key ∈ e.left process resident → ∀ e' ∈ row, key ∉ e'.cleared process := by
      rintro ⟨-, hdel, -⟩ e' he' hcl
      obtain ⟨hkey, hmem⟩ := e.drawn_of_deletion process resident hcall
        (show (key, true) ∈ e.deletions process by simp [hdel])
      obtain ⟨hkey', hmem'⟩ := e'.drawn_of_deletion process resident
        (h _ (List.mem_cons_of_mem _ (call_mem_of_mem_episodes process he'))) hcl
      have hnumber : e.sequence.next = e'.sequence.next :=
        congrArg KeyAlias.number (KeyAlias.text_injective (hkey.symm.trans hkey'))
      exact hne _ hmem _ (List.mem_flatMap.mpr ⟨e', he', hmem'⟩) hnumber
    show key ∈ resident (stateAfter process calls (e.run process).state
        (e.run process).sequence) ↔
      (key ∈ resident s ∧ ∀ e' ∈ e :: row, key ∉ e'.cleared process) ∨
        ∃ e' ∈ e :: row, key ∈ e'.left process resident
    rw [hih, hfirst, List.forall_mem_cons, List.exists_mem_cons_iff, Set.mem_union,
      Set.mem_sdiff]
    constructor
    · rintro (⟨⟨hs, hcl⟩ | hl, hrest⟩ | hr)
      · exact .inl ⟨hs, hcl, hrest⟩
      · exact .inr (.inl hl)
      · exact .inr (.inr hr)
    · rintro (⟨hs, hcl, hrest⟩ | hl | hr)
      · exact .inl ⟨.inl ⟨hs, hcl⟩, hrest⟩
      · exact .inl ⟨.inr hl, hlater hl⟩
      · exact .inr hr

/-- **No key outlives its call.** -/
theorem residents_after_calls {calls : List (Call σ)}
    (h : ∀ call ∈ calls, Custody resident call.collaborators) (s : σ) (n : AliasSequence) :
    (∀ e ∈ episodes process calls s n, e.Tidy process resident) ∧
      (((episodes process calls s n).flatMap (Episode.numbers process)).length < 2 ^ 64 →
        resident (stateAfter process calls s n) =
          (resident s \ {key | ∃ e ∈ episodes process calls s n,
              (key, true) ∈ e.deletions process}) ∪
            {key | ∃ e ∈ episodes process calls s n, key = e.key process ∧
              e.deletions process = [(key, true), (key, false)] ∧
              e.LeavesKey process resident}) := by
  refine ⟨fun e he => e.tidy process resident
    (h _ (call_mem_of_mem_episodes process he)), fun hlt => ?_⟩
  have hnodup : ((episodes process calls s n).flatMap (Episode.numbers process)).Nodup := by
    rw [numbers_flatMap] at hlt ⊢
    exact (gives_episodes process calls s n).nodup hlt
  ext key
  rw [mem_resident_stateAfter process resident h s n hnodup key]
  simp [Episode.cleared, Episode.left]

end

/-! ### The scripted keystore -/

/-- The keys that a scripted keystore holds. -/
def ScriptedStore.keys (s : ScriptedStore) : Set String := {key | key ∈ s.resident}

theorem ScriptedStore.keys_store (s : ScriptedStore) (key : String) :
    (s.store key).keys = insert key s.keys := by
  ext k
  unfold store
  by_cases h : key ∈ s.resident
  · rw [if_pos h]
    exact ⟨.inr, fun hk => hk.elim (fun he => he ▸ h) id⟩
  · rw [if_neg h]
    simp [keys, or_comm]

/-- A scripted generation stores its key or nothing. -/
theorem Script.generate_snd (script : Script) (s : ScriptedStore) (key : String) :
    (script.generate s key).2 = s.store key ∨ (script.generate s key).2 = s := by
  have hstate : (script.generate s key).2 =
      if (StatusCode.check script.generateStatus).toBool ∨ script.generateLeavesKey then s.store key
      else s := by
    unfold generate
    by_cases hf : script.fault = some .generate
    · simp only [if_pos hf]
    · simp only [if_neg hf]
  rw [hstate]
  exact ite_eq_or_eq _ _ _

/-- A scripted keystore is in custody of its keys, whatever its script. -/
theorem Script.custody (script : Script) : Custody ScriptedStore.keys script.collaborators where
  consented s key h := by
    have hc : s.deletions.headD true = true := Except.ok.inj h
    ext k
    show k ∈ (if s.deletions.headD true then s.resident.filter (· ≠ key) else s.resident) ↔ _
    rw [hc, if_pos rfl, List.mem_filter]
    simp [ScriptedStore.keys]
  refused s key h := by
    have hc : s.deletions.headD true = false :=
      Bool.not_eq_true _ ▸ fun hc => h (congrArg Except.ok hc)
    ext k
    show k ∈ (if s.deletions.headD true then s.resident.filter (· ≠ key) else s.resident) ↔ _
    rw [hc]
    rfl
  keeps s key params := by
    rcases script.generate_snd s key with h | h
    · exact (Set.subset_insert key s.keys).trans (h ▸ s.keys_store key).superset
    · exact (congrArg ScriptedStore.keys h).superset
  adds s key params := by
    rcases script.generate_snd s key with h | h
    · exact (h ▸ s.keys_store key).subset
    · exact (congrArg ScriptedStore.keys h).subset.trans (Set.subset_insert key s.keys)
  other q s h := by
    cases q with
    | deleteKey key => exact absurd h.symm Bool.false_ne_true
    | generateKey key params => exact absurd h.symm Bool.false_ne_true
    | _ => rfl

/-- Two calls on a device without telephony, the second of which leaves its key behind. -/
def Script.rehearsal : List (Call ScriptedStore) :=
  let script := Script.new (.new "S1" .empty) []
  [⟨script.collaborators, .standard, .codes [1] []⟩,
   ⟨script.collaborators, .standard, .codes [] []⟩]

theorem residents_after_rehearsal :
    let process := ProcessLabel.ofNat 7
    let s : ScriptedStore := ⟨["other"], [true, true, true, false]⟩
    let row := episodes process Script.rehearsal s .start
    (∀ call ∈ Script.rehearsal, Custody ScriptedStore.keys call.collaborators) ∧
      (row.flatMap (Episode.numbers process)).length < 2 ^ 64 ∧
      (∀ e ∈ row, e.Tidy process ScriptedStore.keys) ∧
      (stateAfter process Script.rehearsal s .start).keys =
        (s.keys \ {key | ∃ e ∈ row, (key, true) ∈ e.deletions process}) ∪
          {key | ∃ e ∈ row, key = e.key process ∧
            e.deletions process = [(key, true), (key, false)] ∧
            e.LeavesKey process ScriptedStore.keys} := by
  intro process s row
  have hcustody : ∀ call ∈ Script.rehearsal, Custody ScriptedStore.keys call.collaborators := by
    simp [Script.rehearsal, Script.custody]
  have hlt : (row.flatMap (Episode.numbers process)).length < 2 ^ 64 := by
    decide
  obtain ⟨htidy, hkeys⟩ := residents_after_calls process ScriptedStore.keys hcustody s .start
  exact ⟨hcustody, hlt, htidy, hkeys hlt⟩

end DeviceAttest
