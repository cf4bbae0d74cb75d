import DeviceAttest.Proofs.Call.Demand
import DeviceAttest.Proofs.Call.Plan
import DeviceAttest.Proofs.Call.Reports

/-!
# Identifiers are collected in order

A call whose codes are all known asks the source what is planned for its request, in that order, and
the first failure of the source ends the call (`CollectsInOrder`): with that failure, before any
question to keystore or decoder, any number and any event (`EndsWith`).

* `collection_attest`: a call either ends with a failure of the source, or is told everything that
  is planned and then no longer asks the source;
* `Collection.collectsInOrder`: both ways are in order;
* `identifiers_collected_in_order`: so are all calls that ask for a request, and those with an
  unknown code do nothing.
-/

namespace DeviceAttest

open Program

/-! ### What a source may withhold -/

namespace Exchange

/-- A read that is denied for a reason. -/
inductive Denied (reason : String) : Exchange → Prop where
  | serial : Denied reason ⟨.serial, .ok (.error (.permissionDenied reason))⟩
  | imei {slot : UInt32} : Denied reason ⟨.imei slot, .ok (.error (.permissionDenied reason))⟩
  | meid : Denied reason ⟨.meid, .ok (.error (.permissionDenied reason))⟩

/-- A read of an identifier that the source does not have. -/
inductive Absent : IdentifierType → Exchange → Prop where
  | imei {slot : UInt32} : Absent .imei ⟨.imei slot, .ok (.ok none)⟩
  | meid : Absent .meid ⟨.meid, .ok (.ok none)⟩

theorem Denied.failure? {x : Exchange} {reason : String} (h : x.Denied reason) :
    x.failure? = some (.error (.permissionDenied reason)) := by
  cases h <;> rfl

theorem Absent.failure? {x : Exchange} {type : IdentifierType} (h : x.Absent type) :
    x.failure? = some (.error (.identifierUnavailable (.identifier type))) := by
  cases h <;> rfl

theorem Denied.ofSource {x : Exchange} {reason : String} (h : x.Denied reason) :
    x.1.ofSource := by
  cases h <;> rfl

theorem Absent.ofSource {x : Exchange} {type : IdentifierType} (h : x.Absent type) :
    x.1.ofSource := by
  cases h <;> rfl

/-- Only the question for the telephony service fails for want of it. -/
theorem failure?_eq_telephonyService {x : Exchange}
    (h : x.failure? = some (.error (.identifierUnavailable .telephonyService))) :
    x = ⟨.telephony, .ok false⟩ := by
  have none_of_count {α : Type} {fault : Nat → ChainFault} {items : List α}
      (hc : (countError? fault items).map Failure.error =
        some (.error (.identifierUnavailable .telephonyService))) : False := by
    rw [countError?] at hc
    split at hc <;> cases hc
  obtain ⟨q, reply⟩ := x
  cases q with
  | telephony =>
    rcases reply with f | _ | _
    · cases h
    · rfl
    · cases h
  | serial | generateKey => rcases reply with f | e | a <;> cases h
  | imei | meid => rcases reply with f | e | _ | a <;> cases h
  | buildProperties => rcases reply with f | build <;> cases h
  | deleteKey key => rcases reply with f | _ | _ <;> cases h
  | attestKey | decode =>
    rcases reply with f | e | a
    · cases h
    · cases h
    · exact (none_of_count h).elim

end Exchange

/-! ### Calls in order -/

/-- The questions of a run to the source, in order. -/
def Run.sourceQueries {σ α : Type} (r : Run σ α) : List Query := r.queries.filter Query.ofSource

theorem Run.queries_eq {σ α : Type} (r : Run σ α) : r.queries = r.exchanges.map Sigma.fst :=
  queries_eq_map_exchanges r.steps

section

variable {σ : Type} (slot : UInt32) (request : Request) (n : AliasSequence)
  (run : Run σ (Except Failure Chain))

/-- A call ends with the failure of an exchange: nothing comes after that exchange, nothing before
it failed, keystore and decoder are not asked, no number is drawn and nothing is reported. -/
structure EndsWith (x : Exchange) (failure : Failure) : Prop where
  last : ∃ before, run.exchanges = before ++ [x] ∧ ∀ y ∈ before, y.failure? = none
  value : run.value = .error failure
  source : ∀ q ∈ run.queries, q.ofSource
  numbers : Step.numbers run.steps = []
  sequence : run.sequence = n
  events : run.events = []

/-- A call collects in order. -/
structure CollectsInOrder : Prop where
  /-- The source is asked before keystore and decoder. -/
  first : run.queries = run.sourceQueries ++ run.queries.filter fun q => !q.ofSource
  /-- It is asked what is planned, and in that order. -/
  planned : run.sourceQueries <+: Attest.plan slot request
  /-- No question is asked twice. -/
  once : run.sourceQueries.Nodup
  /-- The telephony service is asked for once if it is needed, and never if not. -/
  telephony : run.queries.count .telephony = if request.requiresTelephony then 1 else 0
  /-- Without it nothing else is asked. -/
  absent : ⟨.telephony, .ok false⟩ ∈ run.exchanges → run.exchanges = [⟨.telephony, .ok false⟩]
  /-- In no other case is it reported as missing. -/
  unavailable : run.value = .error (.error (.identifierUnavailable .telephonyService)) ↔
    ⟨.telephony, .ok false⟩ ∈ run.exchanges
  /-- A failure of the source ends the call. -/
  stopped : ∀ x ∈ run.exchanges, x.1.ofSource → ∀ failure, x.failure? = some failure →
    EndsWith n run x failure
  /-- A denial ends it with its reason, -/
  denied : ∀ x ∈ run.exchanges, ∀ reason, x.Denied reason →
    EndsWith n run x (.error (.permissionDenied reason))
  /-- and an absent identifier with its name. -/
  missing : ∀ x ∈ run.exchanges, ∀ type, x.Absent type →
    EndsWith n run x (.error (.identifierUnavailable (.identifier type)))
  /-- The build metadata are asked for once all reads have succeeded. -/
  build : .buildProperties ∈ run.queries → run.sourceQueries = Attest.plan slot request ∧
    ∀ x ∈ run.exchanges, x.1.ofSource → x.1 ≠ .buildProperties → x.failure? = none
  /-- Without a failure everything is asked that is planned, and a number is drawn. -/
  completed : (∀ x ∈ run.exchanges, x.1.ofSource → x.failure? = none) →
    run.sourceQueries = Attest.plan slot request ∧ Step.numbers run.steps = [n.next]

/-- How the collection of a call goes: it fails with its last exchange, or all that is planned is
asked and told, and what follows does not go to the source. -/
inductive Collection : Prop where
  | failed {x : Exchange} {failure : Failure}
      (hends : EndsWith n run x failure) (hx : x.failure? = some failure)
      (hplan : run.queries <+: Attest.plan slot request)
  | whole {early life : List Exchange} (hsplit : run.exchanges = early ++ life)
      (hplan : early.map Sigma.fst = Attest.plan slot request)
      (hsource : ∀ x ∈ early, x.1.ofSource) (htold : ∀ x ∈ early, x.failure? = none)
      (hlife : ∀ x ∈ life, x.1.ofSource = false)
      (hvalue : run.value ≠ .error (.error (.identifierUnavailable .telephonyService)))
      (hnumbers : Step.numbers run.steps = [n.next])

end

section

variable {σ : Type} {slot : UInt32} {request : Request} {n : AliasSequence}
  {run : Run σ (Except Failure Chain)}

/-- A call that fails as it collects does so in order. -/
theorem EndsWith.collectsInOrder {x : Exchange} {failure : Failure}
    (h : EndsWith n run x failure) (hx : x.failure? = some failure)
    (hplan : run.queries <+: Attest.plan slot request) : CollectsInOrder slot request n run := by
  obtain ⟨before, hsplit, hbefore⟩ := h.last
  have hqueries : run.queries = before.map Sigma.fst ++ [x.1] := by
    rw [run.queries_eq, hsplit, List.map_append, List.map_singleton]
  have hsource : run.sourceQueries = run.queries := List.filter_eq_self.mpr h.source
  have hnone : (run.queries.filter fun q => !q.ofSource) = [] :=
    List.filter_eq_nil_iff.mpr fun q hq => by simp [h.source q hq]
  have hne : run.queries ≠ [] :=
    hqueries ▸ List.append_ne_nil_of_right_ne_nil _ (List.cons_ne_nil _ _)
  have hmem : x ∈ run.exchanges := hsplit ▸ List.mem_append_right _ List.mem_cons_self
  -- the last exchange is the only one that fails
  have honly {y : Exchange} {failure' : Failure} (hy : y ∈ run.exchanges)
      (hf : y.failure? = some failure') : y = x := by
    rw [hsplit] at hy
    rcases List.mem_append.mp hy with hy | hy
    · cases hf.symm.trans (hbefore y hy)
    · exact List.mem_singleton.mp hy
  have hstopped {y : Exchange} {failure' : Failure} (hy : y ∈ run.exchanges)
      (hf : y.failure? = some failure') : EndsWith n run y failure' := by
    obtain rfl := honly hy hf
    obtain rfl := Option.some.inj (hx.symm.trans hf)
    exact h
  exact {
    first := by rw [hsource, hnone, List.append_nil]
    planned := hsource ▸ hplan
    once := hsource ▸ hplan.sublist.nodup (Attest.nodup_plan slot request)
    telephony := Attest.count_telephony hplan hne
    absent := fun hy => by
      obtain rfl := honly hy rfl
      rw [hqueries] at hplan
      have hnil := List.map_eq_nil_iff.mp (Attest.eq_nil_of_telephony_last hplan)
      rw [hsplit, hnil, List.nil_append]
    unavailable := by
      constructor
      · intro hvalue
        cases h.value.symm.trans hvalue
        exact Exchange.failure?_eq_telephonyService hx ▸ hmem
      · exact fun hy => (hstopped hy rfl).value
    stopped := fun y hy _ failure' hf => hstopped hy hf
    denied := fun y hy reason hd => hstopped hy hd.failure?
    missing := fun y hy type ha => hstopped hy ha.failure?
    build := fun hbuild => by
      have hwhole := Attest.eq_plan_of_buildProperties_mem hplan hbuild
      refine ⟨hsource.trans hwhole, fun y hy _ hne => ?_⟩
      by_contra hsome
      obtain ⟨failure', hf⟩ := Option.ne_none_iff_exists'.mp hsome
      obtain rfl := honly hy hf
      rw [hqueries, Attest.plan, ← List.append_assoc] at hwhole
      exact hne (List.singleton_inj.mp (List.append_inj' hwhole rfl).2)
    completed := fun hall => by
      have hxsource : x.1.ofSource := h.source x.1 (hqueries ▸ List.mem_concat_self)
      cases hx.symm.trans (hall x hmem hxsource) }

/-- So does a call that is told all that it asks. -/
theorem Collection.collectsInOrder (h : Collection slot request n run) :
    CollectsInOrder slot request n run := by
  cases h with
  | failed hends hx hplan => exact hends.collectsInOrder hx hplan
  | @whole early life hsplit hplan hsource htold hlife hvalue hnumbers =>
    have hqueries : run.queries = early.map Sigma.fst ++ life.map Sigma.fst := by
      rw [run.queries_eq, hsplit, List.map_append]
    have hearly : ∀ q ∈ early.map Sigma.fst, q.ofSource := List.forall_mem_map.mpr hsource
    have hlater : ∀ q ∈ life.map Sigma.fst, q.ofSource = false := List.forall_mem_map.mpr hlife
    have hasked : run.sourceQueries = early.map Sigma.fst := by
      rw [Run.sourceQueries, hqueries, List.filter_append, List.filter_eq_self.mpr hearly,
        List.filter_eq_nil_iff.mpr fun q hq => by simp [hlater q hq], List.append_nil]
    have hrest : (run.queries.filter fun q => !q.ofSource) = life.map Sigma.fst := by
      rw [hqueries, List.filter_append,
        List.filter_eq_nil_iff.mpr fun q hq => by simp [hearly q hq],
        List.filter_eq_self.mpr fun q hq => by simp [hlater q hq], List.nil_append]
    have htelephony : run.queries.count .telephony = run.sourceQueries.count .telephony :=
      (List.count_filter rfl).symm
    -- no exchange with the source fails
    have hnone {x : Exchange} {failure : Failure} (hx : x ∈ run.exchanges) (hs : x.1.ofSource)
        (hf : x.failure? = some failure) : False := by
      rw [hsplit] at hx
      rcases List.mem_append.mp hx with hx | hx
      · cases hf.symm.trans (htold x hx)
      · cases hs.symm.trans (hlife x hx)
    have hwhole : run.sourceQueries = Attest.plan slot request := hasked.trans hplan
    exact {
      first := by rw [hasked, hrest, hqueries]
      planned := hwhole ▸ List.prefix_rfl
      once := hwhole ▸ Attest.nodup_plan slot request
      telephony := by
        rw [htelephony, hwhole]
        refine Attest.count_telephony List.prefix_rfl ?_
        exact List.append_ne_nil_of_right_ne_nil _
          (List.append_ne_nil_of_right_ne_nil _ (List.cons_ne_nil _ _))
      absent := fun hx => (hnone hx rfl rfl).elim
      unavailable := ⟨fun h => (hvalue h).elim, fun hx => (hnone hx rfl rfl).elim⟩
      stopped := fun x hx hs failure hf => (hnone hx hs hf).elim
      denied := fun x hx reason hd => (hnone hx hd.ofSource hd.failure?).elim
      missing := fun x hx type ha => (hnone hx ha.ofSource ha.failure?).elim
      build := fun _ => ⟨hwhole, fun x hx hs _ => by
        by_contra hsome
        obtain ⟨failure, hf⟩ := Option.ne_none_iff_exists'.mp hsome
        exact hnone hx hs hf⟩
      completed := fun _ => ⟨hwhole, hnumbers⟩ }

end

section Whole

variable {σ : Type} (c : Collaborators σ) (process : ProcessLabel) (settings : AttestationSettings)
  (request : Request) (s : σ) (n : AliasSequence)

/-- The collection of a call goes in one of the two ways. -/
theorem collection_attest :
    Collection settings.imeiSlot request n
      ((attest process settings request).run.run c s n) := by
  let collected := (Attest.collectParams settings.imeiSlot request).run.run c s n
  let call := (attest process settings request).run.run c s n
  have hpath : Path (Attest.collectParams settings.imeiSlot request).run collected.steps
      collected.value := path_run c _ s n
  have hsource : ∀ step ∈ collected.steps, step.OfSource :=
    Attest.always_collectParams _ _ _ _ hpath
  have hexchanges : ∀ x ∈ collected.exchanges, x.1.ofSource := fun x hx =>
    ofSource_of_mem_exchanges hsource hx
  obtain ⟨hplan, hall⟩ := Attest.follows_collectParams settings.imeiSlot request _ _ hpath
  have hdecides : Decides collected.exchanges collected.value :=
    Attest.decided_collectParams settings.imeiSlot request _ _ hpath
  cases hv : collected.value with
  | error failure =>
    rw [hv] at hdecides
    obtain ⟨before, x, hsplit, hbefore, hx⟩ := hdecides
    obtain ⟨hsteps, hvalue⟩ := steps_attest_error c process settings request s n hv
    have hquiet : ∀ step ∈ call.steps, step.Quiet := fun step hs =>
      (hsource step (hsteps ▸ hs)).quiet
    have hcall : call.exchanges = collected.exchanges := congrArg Step.exchanges hsteps
    have hqueries : call.queries = Step.queries collected.steps := congrArg Step.queries hsteps
    refine .failed ⟨⟨before, hcall.trans hsplit, hbefore⟩, hvalue, fun q hq => ?_,
      numbers_eq_nil hquiet, ?_, events_attest_error c process settings request s n hv⟩ hx
      (hqueries ▸ hplan)
    · rw [call.queries_eq, hcall] at hq
      obtain ⟨y, hy, rfl⟩ := List.mem_map.mp hq
      exact hexchanges y hy
    · rw [sequence_run]
      exact after_of_quiet hquiet n
  | ok params =>
    rw [hv] at hdecides
    obtain ⟨course, hsteps, hvalue⟩ := steps_attest_ok c process settings request s n hv
    have hlife := (lifecycle_course (aliasText process settings n.next) params
      course).ofSource_eq_false
    refine .whole ((congrArg Step.exchanges hsteps).trans (exchanges_append _ _)) ?_ hexchanges
      hdecides hlife (fun htelephony => ?_) ?_
    · exact (queries_eq_map_exchanges _).symm.trans (hall params hv)
    · -- a course does not ask the source, and so cannot fail as the source does
      have hcourse := course.decides (aliasText process settings n.next) params
      rw [Attest.Course.verdict_of_result_error (hvalue.symm.trans htelephony)] at hcourse
      obtain ⟨before, x, hstages, -, hx⟩ := hcourse
      obtain rfl := Exchange.failure?_eq_telephonyService hx
      refine absurd (hlife ⟨.telephony, .ok false⟩ ?_) (Bool.false_ne_true ·.symm)
      rw [course.exchanges_steps, hstages]
      exact List.mem_append_left _ List.mem_concat_self
    · rw [hsteps, numbers_append, numbers_eq_nil fun step hs => (hsource step hs).quiet]
      exact congrArg (n.next :: ·) (numbers_course _ params course)

/-- A call collects in order. -/
theorem collectsInOrder_attest :
    CollectsInOrder settings.imeiSlot request n
      ((attest process settings request).run.run c s n) :=
  (collection_attest c process settings request s n).collectsInOrder

end Whole

/-- **Identifiers are collected in order.**  A call with an unknown code takes no step.  Any other
one asks for the telephony service once if it needs it, then for each requested identifier in the
fixed order, then for the build metadata, and the first failure ends it with its cause, before there
is a number, a question to keystore or decoder, or an event.  Only the first of these questions can
find the telephony service missing: the second check, at each read, never fails, and a collection
without it is the same program. -/
theorem identifiers_collected_in_order {σ : Type} (process : ProcessLabel) (call : Call σ) (s : σ)
    (n : AliasSequence) :
    let run := call.run process s n
    (∀ code, call.demand.Unknown code →
      run = ⟨.error (.error (.invalidArgument (.unknownIdentifier code))), s, n, []⟩) ∧
      (∀ request, call.demand.Asks request →
        CollectsInOrder call.settings.imeiSlot request n run) ∧
      ((∃ code, call.demand.Unknown code) ∨ ∃ request, call.demand.Asks request) ∧
      ∀ slot request,
        Attest.collectParams slot request = Attest.collectDirectly slot request := by
  refine ⟨fun code h => Call.run_of_unknown h, fun request h => ?_, call.demand.unknown_or_asks,
    Attest.collectParams_eq⟩
  rw [Call.run_of_asks h]
  exact collectsInOrder_attest call.collaborators process call.settings request s n

/-- A device whose telephony service has no identifier in any slot. -/
def Script.slotless : Script := .new ((Device.new "S1" .empty).withTelephony [] (some "M1")) []

/-- Its serial number is read, and the first identifier that is absent ends the call. -/
theorem identifiers_collected_slotless :
    let call : Call ScriptedStore :=
      ⟨Script.slotless.collaborators, .standard, .codes [3, 1, 2, 3] []⟩
    let run := call.run (.ofNat 7) ⟨[], []⟩ .start
    call.demand.Asks (.ofTypes [.serial, .imei, .meid] []) ∧
      run.queries = [.telephony, .serial, .imei 0] ∧
      run.value = .error (.error (.identifierUnavailable (.identifier .imei))) ∧
      run.sequence = .start ∧ run.events = [] := by
  intro call run
  have hknown : ∀ code ∈ ([3, 1, 2, 3] : List Int32), Known code := by
    intro code hcode
    simp only [List.mem_cons, List.not_mem_nil, or_false] at hcode
    rcases hcode with rfl | rfl | rfl | rfl
    exacts [⟨.meid, rfl⟩, ⟨.serial, rfl⟩, ⟨.imei, rfl⟩, ⟨.meid, rfl⟩]
  have htypes : ∀ type, (Request.ofTypes [.serial, .imei, .meid] []).contains type = true ↔
      type.code ∈ ([3, 1, 2, 3] : List Int32) := fun type => by
    cases type <;> decide
  have hasks : call.demand.Asks (.ofTypes [.serial, .imei, .meid] []) := .codes hknown htypes
  obtain ⟨-, horder, -⟩ :=
    identifiers_collected_in_order (.ofNat 7) call ⟨[], []⟩ .start
  have hends := (horder _ hasks).missing ⟨.imei 0, .ok (.ok none)⟩
    (List.mem_of_getLast? rfl) .imei .imei
  exact ⟨hasks, rfl, hends.value, hends.sequence, hends.events⟩

end DeviceAttest
