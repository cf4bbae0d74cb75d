import DeviceAttest.Proofs.Call.Outcome

/-!
# What a course reports

A course reports each success where it comes, and the answer to its last deletion at the end
(`Attest.Course.events_steps`).  Its exchanges show the same: a key that is made, the entries of a
raw chain, a chain that is decoded (`generated_iff`, `attested_iff`, `decoded_iff`), and what the
last deletion was answered (`released_iff`).
-/

namespace DeviceAttest

open Program

/-- The events among some steps, in order. -/
def Step.events (steps : List Step) : List Event := steps.filterMap Step.event?

theorem events_append (front back : List Step) :
    Step.events (front ++ back) = Step.events front ++ Step.events back :=
  List.filterMap_append

/-- Questions to the source come with no event. -/
theorem events_eq_nil {steps : List Step} (h : ∀ step ∈ steps, step.OfSource) :
    Step.events steps = [] := by
  refine List.filterMap_eq_nil_iff.mpr fun step hs => ?_
  have hstep := h step hs
  cases step with
  | call q reply => rfl
  | drew number => exact hstep.elim
  | event e => exact hstep.elim

theorem toOption_eq_some_iff {ε α : Type} {r : Except ε α} {a : α} :
    r.toOption = some a ↔ r = .ok a := by
  cases r with
  | error e => exact ⟨nofun, nofun⟩
  | ok b => exact Option.some_inj.trans (Except.ok.injEq b a ▸ Iff.rfl)

/-! ### What exchanges give -/

namespace Exchange

/-- The key that an exchange made, by its characteristics. -/
def made? : Exchange → Option KeyCharacteristics
  | ⟨.generateKey _ _, .ok (.ok made)⟩ => some made
  | _                                  => none

/-- The entries of the raw chain that an exchange gave. -/
def entries? : Exchange → Option (List Bytes)
  | ⟨.attestKey _ _, .ok (.ok entries)⟩ => some entries
  | _                                   => none

/-- The chain of the certificates that an exchange gave, if there are enough. -/
def chain? : Exchange → Option Chain
  | ⟨.decode _, reply⟩ => (Attest.ofDecoder reply).toOption
  | _                  => none

variable {exchanges : List Exchange}

theorem exists_made?_iff {made : KeyCharacteristics} :
    (∃ x ∈ exchanges, x.made? = some made) ↔
      ∃ key params, ⟨.generateKey key params, .ok (.ok made)⟩ ∈ exchanges := by
  constructor
  · rintro ⟨x, hx, h⟩
    unfold made? at h
    split at h
    · obtain rfl := Option.some.inj h
      exact ⟨_, _, hx⟩
    · cases h
  · rintro ⟨key, params, hx⟩
    exact ⟨_, hx, rfl⟩

theorem exists_entries?_iff {entries : List Bytes} :
    (∃ x ∈ exchanges, x.entries? = some entries) ↔
      ∃ key params, ⟨.attestKey key params, .ok (.ok entries)⟩ ∈ exchanges := by
  constructor
  · rintro ⟨x, hx, h⟩
    unfold entries? at h
    split at h
    · obtain rfl := Option.some.inj h
      exact ⟨_, _, hx⟩
    · cases h
  · rintro ⟨key, params, hx⟩
    exact ⟨_, hx, rfl⟩

theorem exists_chain?_iff {chain : Chain} :
    (∃ x ∈ exchanges, x.chain? = some chain) ↔
      ∃ stream, ⟨.decode stream, .ok (.ok chain.toList)⟩ ∈ exchanges := by
  constructor
  · rintro ⟨x, hx, h⟩
    unfold chain? at h
    split at h
    · obtain rfl := Attest.ofDecoder_eq_ok_iff.mp (toOption_eq_some_iff.mp h)
      exact ⟨_, hx⟩
    · cases h
  · rintro ⟨stream, hx⟩
    exact ⟨_, hx, toOption_eq_some_iff.mpr (Attest.ofDecoder_eq_ok_iff.mpr rfl)⟩

/-- The source gives none of these. -/
theorem made?_eq_none {x : Exchange} (h : x.1.ofSource) : x.made? = none := by
  obtain ⟨q, reply⟩ := x
  cases q <;> first | rfl | cases h

theorem entries?_eq_none {x : Exchange} (h : x.1.ofSource) : x.entries? = none := by
  obtain ⟨q, reply⟩ := x
  cases q <;> first | rfl | cases h

theorem chain?_eq_none {x : Exchange} (h : x.1.ofSource) : x.chain? = none := by
  obtain ⟨q, reply⟩ := x
  cases q <;> first | rfl | cases h

end Exchange

/-- What no question to the source gives, exchanges after such questions give. -/
theorem exists_mem_append_iff_of_ofSource {α : Type} {view : Exchange → Option α}
    (hview : ∀ x : Exchange, x.1.ofSource → view x = none) {early later : List Exchange}
    (hearly : ∀ x ∈ early, x.1.ofSource) {a : α} :
    (∃ x ∈ early ++ later, view x = some a) ↔ a ∈ later.filterMap view := by
  have hnone : early.filterMap view = [] :=
    List.filterMap_eq_nil_iff.mpr fun x hx => hview x (hearly x hx)
  rw [← List.mem_filterMap, List.filterMap_append, hnone, List.nil_append]

/-- The last exchange is a deletion with this reply, and a key was asked for before it. -/
def Released (exchanges : List Exchange) (key : String) (reply : Except Fault Bool) : Prop :=
  ∃ before, exchanges = before ++ [⟨.deleteKey key, reply⟩] ∧ ∃ x ∈ before, x.1.generates

namespace Attest

/-! ### The events of a course -/

namespace Work

/-- The characteristics of the key that is made. -/
def made? : Work → Option KeyCharacteristics
  | generateFault _      => none
  | generateRefused _    => none
  | attestFault made _   => some made
  | attestRefused made _ => some made
  | tooFew made _ _      => some made
  | decoded made _ _ _   => some made

/-- The entries of the raw chain that is given. -/
def entries? : Work → Option (List Bytes)
  | tooFew _ entries _    => some entries
  | decoded _ entries _ _ => some entries
  | _                     => none

/-- The chain that is decoded. -/
def chain? : Work → Option Chain
  | decoded _ _ _ reply => (ofDecoder reply).toOption
  | _                   => none

theorem chain?_eq_some_iff {work : Work} {chain : Chain} :
    work.chain? = some chain ↔ work.result = .ok chain := by
  cases work with
  | decoded made entries enough reply => exact toOption_eq_some_iff
  | _ => exact ⟨nofun, nofun⟩

variable (key : String) (params : AuthorizationSet) (work : Work)

/-- The exchanges of work give what the work says. -/
theorem filterMap_made? :
    (Step.exchanges (work.steps key params)).filterMap Exchange.made? = work.made?.toList := by
  cases work with
  | decoded made entries enough reply =>
    rw [exchanges_decoded]
    rfl
  | _ => rfl

theorem filterMap_entries? :
    (Step.exchanges (work.steps key params)).filterMap Exchange.entries? =
      work.entries?.toList := by
  cases work with
  | decoded made entries enough reply =>
    rw [exchanges_decoded]
    rfl
  | _ => rfl

theorem filterMap_chain? :
    (Step.exchanges (work.steps key params)).filterMap Exchange.chain? = work.chain?.toList := by
  cases work with
  | decoded made entries enough reply =>
    rw [exchanges_decoded, List.filterMap_cons_none rfl, List.filterMap_cons_none rfl]
    show [_].filterMap Exchange.chain? = (ofDecoder reply).toOption.toList
    have hview : Exchange.chain? ⟨.decode entries.flatten, reply⟩ = (ofDecoder reply).toOption :=
      rfl
    cases h : (ofDecoder reply).toOption with
    | none => exact List.filterMap_cons_none (hview.trans h)
    | some chain => exact List.filterMap_cons_some (hview.trans h)
  | _ => rfl

end Work

namespace Course

/-- The work of a course, if it comes to any. -/
def work? : Course → Option Work
  | cleared work _ => some work
  | _              => none

/-- The characteristics of the key that is made. -/
def made? (course : Course) : Option KeyCharacteristics := course.work?.bind Work.made?

/-- The entries of the raw chain that is given. -/
def entries? (course : Course) : Option (List Bytes) := course.work?.bind Work.entries?

/-- The chain that is decoded. -/
def chain? (course : Course) : Option Chain := course.work?.bind Work.chain?

/-- The reply to the last deletion, if there is a second one. -/
def last? : Course → Option (Except Fault Bool)
  | cleared _ last => some last
  | _              => none

variable (key : String) (params : AuthorizationSet) (course : Course)

/-- A course gives the chain that is decoded, unless its last deletion breaks off. -/
theorem chain?_eq_some_iff_result {chain : Chain} :
    course.chain? = some chain ↔
      course.result key = .ok chain ∨
        (∃ f, course.last? = some (.error f)) ∧ course.chain? = some chain := by
  cases course with
  | clearFault f => exact ⟨nofun, fun h => h.elim nofun And.right⟩
  | refused => exact ⟨nofun, fun h => h.elim nofun And.right⟩
  | cleared work last =>
    cases last with
    | ok consent =>
      rw [result, Attempt.afterCleanUp_ok, ← work.chain?_eq_some_iff]
      exact ⟨.inl, fun h => h.elim id And.right⟩
    | error f =>
      refine ⟨fun h => .inr ⟨⟨f, rfl⟩, h⟩, fun h => h.elim (fun hok => ?_) And.right⟩
      rcases Attempt.afterCleanUp_error work.result f with h | h
      · cases hok.symm.trans h
      · cases hok.symm.trans h

theorem events_completion (r : Except Failure Chain) :
    Step.events (Work.completion key r) =
      (r.toOption.map fun chain => Event.completed key chain.length).toList := by
  cases r with
  | error failure => rfl
  | ok chain => rfl

theorem events_release (last : Except Fault Bool) :
    Step.events (release key last) = told key last := by
  rcases last with f | _ | _ <;> rfl

/-- **The events of a course**: each success is reported where it comes, and the answer to the last
deletion at the end. -/
theorem events_steps :
    Step.events (course.steps key params) =
      .clearing key ::
        ((course.made?.map fun made =>
            Event.generated key made.hardwareEnforced.size made.softwareEnforced.size).toList ++
          (course.entries?.map fun entries => Event.attested key entries.length).toList ++
          (course.chain?.map fun chain => Event.completed key chain.length).toList ++
          course.last?.toList.flatMap (told key)) := by
  cases course with
  | clearFault f => rfl
  | refused => rfl
  | cleared work last =>
    have hlast : (last? (cleared work last)).toList.flatMap (told key) = told key last :=
      List.append_nil _
    show .clearing key :: Step.events (work.steps key params ++ release key last) = _
    rw [events_append, events_release, hlast]
    cases work with
    | decoded made entries enough reply =>
      rw [Work.steps, events_append]
      show _ :: (_ ++ Step.events (Work.completion key (ofDecoder reply)) ++ _) = _
      rw [events_completion]
      rfl
    | _ => rfl

/-- No message of a course comes twice. -/
theorem nodup_messages : ((Step.events (course.steps key params)).map Event.message).Nodup := by
  rw [events_steps]
  rcases course.made? with _ | made <;> rcases course.entries? with _ | entries <;>
    rcases course.chain? with _ | chain <;> rcases course.last? with _ | f | _ | _ <;>
      simp [Event.message, told]

/-! ### What the exchanges of a course give -/

/-- What exchanges of work give by a view, those of a course give, for deletions give nothing. -/
theorem filterMap_exchanges_steps {α : Type} {view : Exchange → Option α}
    {given : Work → Option α} (hdelete : ∀ reply, view ⟨.deleteKey key, reply⟩ = none)
    (hwork : ∀ work : Work,
      (Step.exchanges (work.steps key params)).filterMap view = (given work).toList) :
    (Step.exchanges (course.steps key params)).filterMap view =
      (course.work?.bind given).toList := by
  cases course with
  | clearFault f => exact List.filterMap_cons_none (hdelete _)
  | refused => exact List.filterMap_cons_none (hdelete _)
  | cleared work last =>
    rw [exchanges_cleared, List.filterMap_cons_none (hdelete _), List.filterMap_append, hwork,
      List.filterMap_cons_none (hdelete last), List.filterMap_nil, List.append_nil]
    rfl

variable {key params course} {early : List Exchange} (hearly : ∀ x ∈ early, x.1.ofSource)
include hearly

/-- After questions to the source, a key is made in a course as the course says. -/
theorem generated_iff {made : KeyCharacteristics} :
    (∃ k ps, ⟨.generateKey k ps, .ok (.ok made)⟩ ∈
        early ++ Step.exchanges (course.steps key params)) ↔
      course.made? = some made := by
  rw [← Exchange.exists_made?_iff,
    exists_mem_append_iff_of_ofSource (fun _ => Exchange.made?_eq_none) hearly,
    course.filterMap_exchanges_steps key params (fun _ => rfl) (Work.filterMap_made? key params),
    Option.mem_toList]
  rfl

/-- So are entries given, -/
theorem attested_iff {entries : List Bytes} :
    (∃ k ps, ⟨.attestKey k ps, .ok (.ok entries)⟩ ∈
        early ++ Step.exchanges (course.steps key params)) ↔
      course.entries? = some entries := by
  rw [← Exchange.exists_entries?_iff,
    exists_mem_append_iff_of_ofSource (fun _ => Exchange.entries?_eq_none) hearly,
    course.filterMap_exchanges_steps key params (fun _ => rfl) (Work.filterMap_entries? key params),
    Option.mem_toList]
  rfl

/-- and so is a chain decoded. -/
theorem decoded_iff {chain : Chain} :
    (∃ stream, ⟨.decode stream, .ok (.ok chain.toList)⟩ ∈
        early ++ Step.exchanges (course.steps key params)) ↔
      course.chain? = some chain := by
  rw [← Exchange.exists_chain?_iff,
    exists_mem_append_iff_of_ofSource (fun _ => Exchange.chain?_eq_none) hearly,
    course.filterMap_exchanges_steps key params (fun _ => rfl) (Work.filterMap_chain? key params),
    Option.mem_toList]
  rfl

/-- After questions to the source, a course releases its key as it says. -/
theorem released_iff (reply : Except Fault Bool) :
    Released (early ++ Step.exchanges (course.steps key params)) key reply ↔
      course.last? = some reply := by
  have hnone : ∀ x ∈ early, x.1.generates = false := fun x hx => by
    have h := List.any_eq_false.mp (any_generates_eq_false hearly) x hx
    simpa using h
  -- the only deletion comes right after the source, which is not asked for keys
  have hsingle {first : Except Fault Bool} :
      ¬ Released (early ++ [⟨.deleteKey key, first⟩]) key reply := by
    rintro ⟨before, hsplit, x, hx, hgenerates⟩
    obtain ⟨rfl, -⟩ := List.append_inj' hsplit rfl
    exact absurd hgenerates (by simp [hnone x hx])
  cases course with
  | clearFault f => exact iff_of_false hsingle nofun
  | refused => exact iff_of_false hsingle nofun
  | cleared work last =>
    constructor
    · rintro ⟨before, hsplit, -⟩
      rw [exchanges_steps, ← List.append_assoc] at hsplit
      obtain ⟨-, hlast⟩ := List.append_inj' hsplit rfl
      cases hlast
      rfl
    · intro h
      obtain rfl := Option.some.inj h
      obtain ⟨x, hx, hgenerates⟩ := List.any_eq_true.mp (work.any_generates key params)
      refine ⟨early ++ stages key params (cleared work last), ?_, x, ?_, hgenerates⟩
      · rw [exchanges_steps, ← List.append_assoc]
        rfl
      · exact List.mem_append_right _ (List.mem_cons_of_mem _ hx)

omit hearly

/-- A deletion of a course that breaks off is its first or its last, and the end of the call. -/
theorem result_of_deletion_fault {k : String} {f : Fault}
    (h : ⟨.deleteKey k, .error f⟩ ∈ Step.exchanges (course.steps key params)) :
    course.result key = .error (.fault f.text) ∨ course.result key = .error .aborted := by
  cases course with
  | clearFault f' =>
    cases List.mem_singleton.mp h
    exact .inl rfl
  | refused => cases List.mem_singleton.mp h
  | cleared work last =>
    have hwork : ⟨.deleteKey k, .error f⟩ ∉ Step.exchanges (work.steps key params) := by
      cases work with
      | decoded made entries enough reply => simp [Work.exchanges_decoded]
      | _ => simp [Work.steps, Work.generation, Work.attestation, Step.exchanges, Step.exchange?]
    rw [exchanges_cleared] at h
    rcases List.mem_cons.mp h with h | h
    · cases h
    · cases List.mem_singleton.mp ((List.mem_append.mp h).resolve_left hwork)
      exact Attempt.afterCleanUp_error work.result f

end Course

end Attest

end DeviceAttest
