import DeviceAttest.Proofs.Call.Events
import DeviceAttest.Proofs.Call.Residents

/-!
# What a call reports

The events of a call say what happened to its key, as far as its collaborators tell: a deletion that
breaks off is not reported, and takes the place of the result.

* `reports_iff_mem`: level, message and fields tell an event;
* `mem_events_attest`: the events of a call are those that its exchanges account for (`Account`);
* `attest_reported`: each message in turn, and a key is left behind in silence only if a deletion of
  it breaks off;
* `unreported_if_deletion_breaks_off`: then it is, and a chain is reported that the call does not
  give.
-/

namespace DeviceAttest

open Program

/-- A run reports something of a level, with a message and fields. -/
def Run.Reports {σ α : Type} (r : Run σ α) (level : Log.Level) (message : String)
    (fields : List (String × Event.FieldValue)) : Prop :=
  ∃ e ∈ r.events, e.level = level ∧ e.message = message ∧ e.fields = fields

/-- Message and fields tell an event. -/
theorem Event.eq_of_message_of_fields {e e' : Event} (hmessage : e.message = e'.message)
    (hfields : e.fields = e'.fields) : e = e' := by
  cases e <;> cases e' <;> simp_all [message, fields, key, counts]

theorem reports_iff_mem {σ α : Type} {r : Run σ α} (e : Event) :
    r.Reports e.level e.message e.fields ↔ e ∈ r.events := by
  constructor
  · rintro ⟨e', he', -, hmessage, hfields⟩
    exact Event.eq_of_message_of_fields hmessage hfields ▸ he'
  · intro he
    exact ⟨e, he, rfl, rfl, rfl⟩

/-! ### Whole calls -/

/-- What an event of a call under a key says of its exchanges. -/
inductive Account (key : String) (exchanges : List Exchange) : Event → Prop where
  | clearing {reply : Except Fault Bool} (h : ⟨.deleteKey key, reply⟩ ∈ exchanges) :
      Account key exchanges (.clearing key)
  | generated {made : KeyCharacteristics}
      (h : ∃ k ps, ⟨.generateKey k ps, .ok (.ok made)⟩ ∈ exchanges) :
      Account key exchanges
        (.generated key made.hardwareEnforced.size made.softwareEnforced.size)
  | attested {entries : List Bytes}
      (h : ∃ k ps, ⟨.attestKey k ps, .ok (.ok entries)⟩ ∈ exchanges) :
      Account key exchanges (.attested key entries.length)
  | completed {chain : Chain} (h : ∃ stream, ⟨.decode stream, .ok (.ok chain.toList)⟩ ∈ exchanges) :
      Account key exchanges (.completed key chain.length)
  | removed (h : Released exchanges key (.ok true)) : Account key exchanges (.removed key)
  | leftBehind (h : Released exchanges key (.ok false)) : Account key exchanges (.leftBehind key)

/-- Questions to the source account for no event. -/
theorem not_account_of_ofSource {key : String} {exchanges : List Exchange} {e : Event}
    (hsource : ∀ x ∈ exchanges, x.1.ofSource) : ¬ Account key exchanges e := by
  have hno {x : Exchange} (hx : x ∈ exchanges) (hquestion : x.1.ofSource = false) : False :=
    Bool.false_ne_true (hquestion.symm.trans (hsource x hx))
  have hreleased {reply : Except Fault Bool} : ¬ Released exchanges key reply := by
    rintro ⟨before, rfl, -⟩
    exact hno (List.mem_append_right _ List.mem_cons_self) rfl
  intro h
  cases h with
  | clearing h => exact hno h rfl
  | generated h =>
    obtain ⟨k, ps, h⟩ := h
    exact hno h rfl
  | attested h =>
    obtain ⟨k, ps, h⟩ := h
    exact hno h rfl
  | completed h =>
    obtain ⟨stream, h⟩ := h
    exact hno h rfl
  | removed h => exact hreleased h
  | leftBehind h => exact hreleased h

/-- After questions to the source, the events of a course are those accounted for. -/
theorem Attest.Course.mem_events_steps (key : String) (params : AuthorizationSet) (course : Course)
    {early : List Exchange} (hearly : ∀ x ∈ early, x.1.ofSource) {e : Event} :
    e ∈ Step.events (course.steps key params) ↔
      Account key (early ++ Step.exchanges (course.steps key params)) e := by
  have hcleared : ∃ reply, ⟨.deleteKey key, reply⟩ ∈
      early ++ Step.exchanges (course.steps key params) := by
    rw [course.exchanges_steps]
    cases course with
    | clearFault f => exact ⟨.error f, by simp [stages]⟩
    | refused => exact ⟨.ok false, by simp [stages]⟩
    | cleared work last => exact ⟨.ok true, by simp [stages]⟩
  rw [course.events_steps]
  simp only [List.mem_cons, List.mem_append, Option.mem_toList, Option.map_eq_some_iff,
    List.mem_flatMap]
  constructor
  · rintro (rfl | ((⟨made, h, rfl⟩ | ⟨entries, h, rfl⟩) | ⟨chain, h, rfl⟩) | ⟨last, h, htold⟩)
    · obtain ⟨reply, h⟩ := hcleared
      exact .clearing h
    · exact .generated ((generated_iff hearly).mpr h)
    · exact .attested ((attested_iff hearly).mpr h)
    · exact .completed ((decoded_iff hearly).mpr h)
    · rcases last with f | _ | _
      · exact absurd htold List.not_mem_nil
      · obtain rfl := List.mem_singleton.mp htold
        exact .leftBehind ((released_iff hearly _).mpr h)
      · obtain rfl := List.mem_singleton.mp htold
        exact .removed ((released_iff hearly _).mpr h)
  · intro h
    cases h with
    | clearing _ => exact .inl rfl
    | generated h => exact .inr (.inl (.inl (.inl ⟨_, (generated_iff hearly).mp h, rfl⟩)))
    | attested h => exact .inr (.inl (.inl (.inr ⟨_, (attested_iff hearly).mp h, rfl⟩)))
    | completed h => exact .inr (.inl (.inr ⟨_, (decoded_iff hearly).mp h, rfl⟩))
    | removed h =>
      exact .inr (.inr ⟨_, (released_iff hearly _).mp h, List.mem_singleton.mpr rfl⟩)
    | leftBehind h =>
      exact .inr (.inr ⟨_, (released_iff hearly _).mp h, List.mem_singleton.mpr rfl⟩)

/-- A course that asks for a key reports last what the keystore says became of it. -/
theorem Attest.Course.getLast?_events_steps (key : String) (params : AuthorizationSet)
    (course : Course) {early : List Exchange} (hearly : ∀ x ∈ early, x.1.ofSource)
    (hasked : ∃ x ∈ early ++ Step.exchanges (course.steps key params), x.1.generates) :
    (∃ f, course.last? = some (.error f)) ∨
      (Step.events (course.steps key params)).getLast? = some (.removed key) ∨
        (Step.events (course.steps key params)).getLast? = some (.leftBehind key) := by
  have hnone := any_generates_eq_false hearly
  have hsingle {first : Except Fault Bool} :
      ¬ ∃ x ∈ early ++ [⟨.deleteKey key, first⟩], x.1.generates := by
    rintro ⟨x, hx, hgenerates⟩
    rcases List.mem_append.mp hx with hx | hx
    · exact List.any_eq_false.mp hnone x hx hgenerates
    · obtain rfl := List.mem_singleton.mp hx
      exact Bool.false_ne_true hgenerates
  cases course with
  | clearFault f => exact absurd hasked hsingle
  | refused => exact absurd hasked hsingle
  | cleared work last =>
    rw [events_steps, ← List.cons_append]
    rcases last with f | _ | _
    · exact .inl ⟨f, rfl⟩
    · exact .inr (.inr (List.getLast?_concat ..))
    · exact .inr (.inl (List.getLast?_concat ..))

section Whole

variable {σ : Type} (c : Collaborators σ) (process : ProcessLabel) (settings : AttestationSettings)
  (request : Request) (s : σ) (n : AliasSequence)

/-- A call without parameters reports nothing. -/
theorem events_attest_error {failure : Failure}
    (hv : ((Attest.collectParams settings.imeiSlot request).run.run c s n).value =
      .error failure) :
    ((attest process settings request).run.run c s n).events = [] := by
  obtain ⟨hsteps, -⟩ := steps_attest_error c process settings request s n hv
  refine (congrArg Step.events hsteps).trans (events_eq_nil ?_)
  exact Attest.always_collectParams _ _ _ _ (path_run c _ s n)

/-- A call with parameters reports what its course does. -/
theorem events_attest_ok {params : AuthorizationSet}
    (hv : ((Attest.collectParams settings.imeiSlot request).run.run c s n).value = .ok params) :
    let collected := (Attest.collectParams settings.imeiSlot request).run.run c s n
    let call := (attest process settings request).run.run c s n
    let key := aliasText process settings n.next
    ∃ course : Attest.Course,
      call.events = Step.events (course.steps key params) ∧
      call.exchanges = collected.exchanges ++ Step.exchanges (course.steps key params) ∧
      call.value = course.result key := by
  intro collected call key
  obtain ⟨course, hsteps, hvalue⟩ := steps_attest_ok c process settings request s n hv
  refine ⟨course, ?_, (congrArg Step.exchanges hsteps).trans (exchanges_append _ _), hvalue⟩
  refine (congrArg Step.events hsteps).trans ?_
  rw [events_append, events_eq_nil (Attest.always_collectParams _ _ _ _ (path_run c _ s n))]
  rfl

/-- A run that asks nothing more after some question ends in the state after that question. -/
theorem exists_reply_of_steps {α : Type} {p : Program α} {before after : List Step} {q : Query}
    {reply : q.Reply} (hafter : Step.queries after = [])
    (h : (p.run c s n).steps = before ++ .call q reply :: after) :
    ∃ s', (c.reply q s').1 = reply ∧ (p.run c s n).state = (c.reply q s').2 := by
  refine ⟨c.after s (Step.queries before), ?_, ?_⟩
  · have hanswers := answers_run c p s n
    rw [h, c.answers_append] at hanswers
    exact hanswers.2.1
  · have hqueries : (p.run c s n).queries = Step.queries before ++ q :: Step.queries after :=
      (congrArg Step.queries h).trans (queries_append _ _)
    rw [state_run, hqueries, hafter, c.after_append]
    rfl

/-- **The events of a call are those that its exchanges account for.** -/
theorem mem_events_attest (e : Event) :
    let call := (attest process settings request).run.run c s n
    e ∈ call.events ↔ Account (aliasText process settings n.next) call.exchanges e := by
  intro call
  have hsource := ofSource_of_mem_collected c settings request s n
  cases hv : ((Attest.collectParams settings.imeiSlot request).run.run c s n).value with
  | error failure =>
    obtain ⟨hsteps, -⟩ := steps_attest_error c process settings request s n hv
    have hex : call.exchanges = _ := congrArg Step.exchanges hsteps
    rw [events_attest_error c process settings request s n hv, hex]
    exact ⟨fun he => absurd he List.not_mem_nil,
      fun h => absurd h (not_account_of_ofSource hsource)⟩
  | ok params =>
    obtain ⟨course, hevents, hex, -⟩ := events_attest_ok c process settings request s n hv
    rw [hevents, hex]
    exact course.mem_events_steps _ params hsource

/-- The last event of a call that asked for a key says what became of it, as the keystore does. -/
theorem getLast?_events_attest :
    let call := (attest process settings request).run.run c s n
    let key := aliasText process settings n.next
    (∃ x ∈ call.exchanges, x.1.generates) →
      (∃ f, Released call.exchanges key (.error f)) ∨
        call.events.getLast? = some (.removed key) ∨
          call.events.getLast? = some (.leftBehind key) := by
  intro call key hasked
  have hsource := ofSource_of_mem_collected c settings request s n
  cases hv : ((Attest.collectParams settings.imeiSlot request).run.run c s n).value with
  | error failure =>
    obtain ⟨hsteps, -⟩ := steps_attest_error c process settings request s n hv
    have hex : call.exchanges = _ := congrArg Step.exchanges hsteps
    obtain ⟨x, hx, hgenerates⟩ := hasked
    rw [hex] at hx
    exact absurd hgenerates (List.any_eq_false.mp (any_generates_eq_false hsource) x hx)
  | ok params =>
    obtain ⟨course, hevents, hex, -⟩ := events_attest_ok c process settings request s n hv
    rw [hex] at hasked
    rw [hevents, hex]
    refine (course.getLast?_events_steps key params hsource hasked).imp_left ?_
    exact fun ⟨f, hf⟩ => ⟨f, (Attest.Course.released_iff hsource _).mpr hf⟩

/-- The messages of a call are different from each other. -/
theorem nodup_messages_attest :
    (((attest process settings request).run.run c s n).events.map Event.message).Nodup := by
  cases hv : ((Attest.collectParams settings.imeiSlot request).run.run c s n).value with
  | error failure =>
    rw [events_attest_error c process settings request s n hv]
    exact List.nodup_nil
  | ok params =>
    obtain ⟨course, hevents, -⟩ := events_attest_ok c process settings request s n hv
    rw [hevents]
    exact course.nodup_messages _ params

/-- A call whose chain is decoded gives it, unless its last deletion breaks off. -/
theorem decoded_attest_iff {chain : Chain} :
    let call := (attest process settings request).run.run c s n
    let decoded := ∃ stream, ⟨.decode stream, .ok (.ok chain.toList)⟩ ∈ call.exchanges
    decoded ↔ call.value = .ok chain ∨
      (∃ f, Released call.exchanges (aliasText process settings n.next) (.error f)) ∧ decoded := by
  intro call decoded
  have hsource := ofSource_of_mem_collected c settings request s n
  cases hv : ((Attest.collectParams settings.imeiSlot request).run.run c s n).value with
  | error failure =>
    obtain ⟨hsteps, hvalue⟩ := steps_attest_error c process settings request s n hv
    have hex : call.exchanges = _ := congrArg Step.exchanges hsteps
    have hnone : ¬ decoded := by
      rintro ⟨stream, hx⟩
      rw [hex] at hx
      exact Bool.false_ne_true (hsource _ hx)
    refine ⟨fun h => absurd h hnone, fun h => h.elim (fun hok => ?_) And.right⟩
    cases hok.symm.trans hvalue
  | ok params =>
    obtain ⟨course, -, hex, hvalue⟩ := events_attest_ok c process settings request s n hv
    show (∃ stream, _ ∈ call.exchanges) ↔ call.value = _ ∨ _ ∧ ∃ stream, _ ∈ call.exchanges
    rw [hex, Attest.Course.decoded_iff hsource, hvalue]
    simp only [Attest.Course.released_iff hsource]
    exact course.chain?_eq_some_iff_result _

/-- A deletion that breaks off is the end of its call or of the whole process. -/
theorem value_attest_of_deletion_fault {k : String} {f : Fault}
    (h : ⟨.deleteKey k, .error f⟩ ∈ ((attest process settings request).run.run c s n).exchanges) :
    let call := (attest process settings request).run.run c s n
    call.value = .error (.fault f.text) ∨ call.value = .error .aborted := by
  intro call
  have hsource := ofSource_of_mem_collected c settings request s n
  have hdeletion : ⟨.deleteKey k, .error f⟩ ∉
      ((Attest.collectParams settings.imeiSlot request).run.run c s n).exchanges := fun hmem =>
    absurd (hsource _ hmem) Bool.false_ne_true
  cases hv : ((Attest.collectParams settings.imeiSlot request).run.run c s n).value with
  | error failure =>
    obtain ⟨hsteps, -⟩ := steps_attest_error c process settings request s n hv
    rw [Run.exchanges, hsteps] at h
    exact absurd h hdeletion
  | ok params =>
    obtain ⟨course, -, hex, hvalue⟩ := events_attest_ok c process settings request s n hv
    rw [hex] at h
    rw [hvalue]
    exact Attest.Course.result_of_deletion_fault ((List.mem_append.mp h).resolve_left hdeletion)

/-- A key under the alias of a call is left behind in silence only if its deletion breaks off. -/
theorem reported_of_resident {resident : σ → Set String}
    (hdelete : ∀ s key, (c.reply (.deleteKey key) s).1 = .ok true →
      key ∉ resident (c.reply (.deleteKey key) s).2)
    {params : AuthorizationSet}
    (hv : ((Attest.collectParams settings.imeiSlot request).run.run c s n).value = .ok params) :
    let call := (attest process settings request).run.run c s n
    let key := aliasText process settings n.next
    key ∈ resident call.state →
      call.value = .error (.error (.temporaryKeyRemoval key)) ∨ .leftBehind key ∈ call.events ∨
        ∃ f, ⟨.deleteKey key, .error f⟩ ∈ call.exchanges := by
  intro call key hresident
  let collected := (Attest.collectParams settings.imeiSlot request).run.run c s n
  obtain ⟨course, hsteps, hvalue⟩ := steps_attest_ok c process settings request s n hv
  have hex : call.exchanges =
      collected.exchanges ++ Step.exchanges (course.steps key params) :=
    (congrArg Step.exchanges hsteps).trans (exchanges_append _ _)
  cases course with
  | clearFault f =>
    refine .inr (.inr ⟨f, hex ▸ List.mem_append_right _ ?_⟩)
    exact List.mem_singleton.mpr rfl
  | refused => exact .inl hvalue
  | cleared work last =>
    -- the last deletion is the last question of all
    have hsplit : call.steps = (collected.steps ++ .drew n.next :: .event (.clearing key) ::
        .call (.deleteKey key) (.ok true) :: work.steps key params) ++
          .call (.deleteKey key) last :: (Attest.Course.told key last).map .event := by
      rw [List.append_assoc]
      exact hsteps
    obtain ⟨s', hreply, hstate⟩ := exists_reply_of_steps c s n queries_events hsplit
    rcases last with f | _ | _
    · refine .inr (.inr ⟨f, hex ▸ List.mem_append_right _ ?_⟩)
      rw [Attest.Course.exchanges_cleared]
      exact List.mem_cons_of_mem _ List.mem_concat_self
    · refine .inr (.inl (List.mem_filterMap.mpr ⟨.event (.leftBehind key), ?_, rfl⟩))
      rw [hsplit]
      exact List.mem_append_right _ (List.mem_cons_of_mem _ List.mem_cons_self)
    · exact absurd (hstate ▸ hresident) (hdelete s' key hreply)

end Whole

/-- **No key is left behind in silence** by a keystore that answers.  Whatever the collaborators of
a call reply, and wherever they break off, every event of the call carries its alias and no message
comes twice.  The answer to the last deletion is reported as what it is, and as the last event of
all once a key was asked for; a generated key and an attestation are reported exactly if there is
one, with the number of its items; a collection that fails reports nothing.  A chain is reported
exactly if the call gives one of that length, or would have given it but for a last deletion that
breaks off.  A deletion that breaks off is the end of the call or of the whole process.  So if
deletions are answered by `true` only when the key is gone, a key under the alias after the call is
one that the call was refused to clear, or one that the keystore may have kept by its own report, or
one whose deletion broke off. -/
theorem attest_reported {σ : Type} (c : Collaborators σ) (process : ProcessLabel)
    (settings : AttestationSettings) (request : Request) (s : σ) (n : AliasSequence) :
    let collected := (Attest.collectParams settings.imeiSlot request).run.run c s n
    let call := (attest process settings request).run.run c s n
    let key := aliasText process settings n.next
    let named := ("alias", Event.FieldValue.text key)
    (∀ e ∈ call.events, named ∈ e.fields) ∧
      (call.events.map Event.message).Nodup ∧
      (call.Reports .warn
          "failed to remove temporary attestation key; key may remain in keystore" [named] ↔
        Released call.exchanges key (.ok false)) ∧
      (call.Reports .debug "temporary attestation key removed" [named] ↔
        Released call.exchanges key (.ok true)) ∧
      ((∃ x ∈ call.exchanges, x.1.generates) →
        (∃ f, Released call.exchanges key (.error f)) ∨
          call.events.getLast? = some (.removed key) ∨
            call.events.getLast? = some (.leftBehind key)) ∧
      (∀ count,
        call.Reports .info "device identifier attestation complete"
            [named, ("certificates", .count count)] ↔
          ∃ chain, chain.length = count ∧
            (call.value = .ok chain ∨ (∃ f, Released call.exchanges key (.error f)) ∧
              ∃ stream, ⟨.decode stream, .ok (.ok chain.toList)⟩ ∈ call.exchanges)) ∧
      (∀ hardware software,
        call.Reports .debug "temporary key generated"
            [named, ("hw_enforced", .count hardware), ("sw_enforced", .count software)] ↔
          ∃ k params made, ⟨.generateKey k params, .ok (.ok made)⟩ ∈ call.exchanges ∧
            made.hardwareEnforced.size = hardware ∧ made.softwareEnforced.size = software) ∧
      (∀ count,
        call.Reports .debug "attestation returned" [named, ("entries", .count count)] ↔
          ∃ k params entries, ⟨.attestKey k params, .ok (.ok entries)⟩ ∈ call.exchanges ∧
            entries.length = count) ∧
      (∀ failure, collected.value = .error failure → call.events = []) ∧
      (∀ k f, ⟨.deleteKey k, .error f⟩ ∈ call.exchanges →
        call.value = .error (.fault f.text) ∨ call.value = .error .aborted) ∧
      ∀ resident : σ → Set String,
        (∀ s key, (c.reply (.deleteKey key) s).1 = .ok true →
          key ∉ resident (c.reply (.deleteKey key) s).2) →
        ∀ params, collected.value = .ok params → key ∈ resident call.state →
          call.value = .error (.error (.temporaryKeyRemoval key)) ∨
            call.Reports .warn
              "failed to remove temporary attestation key; key may remain in keystore" [named] ∨
            ∃ f, ⟨.deleteKey key, .error f⟩ ∈ call.exchanges := by
  intro collected call key named
  have hmem (e : Event) : e ∈ call.events ↔ Account key call.exchanges e :=
    mem_events_attest c process settings request s n e
  -- a report is an event, and an event is one that is accounted for
  have hreports (e : Event) :
      call.Reports e.level e.message e.fields ↔ Account key call.exchanges e :=
    (reports_iff_mem e).trans (hmem e)
  refine ⟨fun e he => ?_, nodup_messages_attest c process settings request s n,
    (hreports (.leftBehind key)).trans ?_, (hreports (.removed key)).trans ?_,
    getLast?_events_attest c process settings request s n,
    fun count => (hreports (.completed key count)).trans ?_,
    fun hardware software => (hreports (.generated key hardware software)).trans ?_,
    fun count => (hreports (.attested key count)).trans ?_,
    fun _ => events_attest_error c process settings request s n,
    fun _ _ => value_attest_of_deletion_fault c process settings request s n,
    fun resident hdelete params hv hresident => ?_⟩
  · cases (hmem e).mp he <;> exact List.mem_cons_self
  · exact ⟨fun h => by cases h; assumption, .leftBehind⟩
  · exact ⟨fun h => by cases h; assumption, .removed⟩
  · constructor
    · intro h
      cases h with
      | completed h =>
        exact ⟨_, rfl, (decoded_attest_iff c process settings request s n).mp h⟩
    · rintro ⟨chain, rfl, h⟩
      exact .completed ((decoded_attest_iff c process settings request s n).mpr h)
  · constructor
    · intro h
      cases h with
      | generated h =>
        obtain ⟨k, params, h⟩ := h
        exact ⟨k, params, _, h, rfl, rfl⟩
    · rintro ⟨k, params, made, h, rfl, rfl⟩
      exact .generated ⟨k, params, h⟩
  · constructor
    · intro h
      cases h with
      | attested h =>
        obtain ⟨k, params, h⟩ := h
        exact ⟨k, params, _, h, rfl⟩
    · rintro ⟨k, params, entries, h, rfl⟩
      exact .attested ⟨k, params, h⟩
  · have hleft := reported_of_resident c process settings request s n hdelete hv hresident
    exact hleft.imp_right fun h => h.imp_left (reports_iff_mem (.leftBehind key)).mpr

/-- A keystore that refuses the last deletion keeps the key, and the call says so. -/
theorem attest_reported_barren :
    let request := Request.ofTypes [.serial] []
    let s : ScriptedStore := ⟨[], [true, false]⟩
    let call := (attest (.ofNat 7) .standard request).run.run Script.barren.collaborators s .start
    let key := aliasText (.ofNat 7) .standard 1
    key ∈ call.state.keys ∧
      call.value = .error (.error (.malformedChain (.tooFewEntries 0))) ∧
      call.Reports .warn "failed to remove temporary attestation key; key may remain in keystore"
        [("alias", .text key)] := by
  intro request s call key
  have hdelete : ∀ (s : ScriptedStore) key,
      (Script.barren.collaborators.reply (.deleteKey key) s).1 = .ok true →
        key ∉ (Script.barren.collaborators.reply (.deleteKey key) s).2.keys := by
    intro s key h
    rw [Script.barren.custody.consented s key h]
    exact fun hmem => hmem.2 rfl
  have hstate : call.state = ⟨[key], []⟩ := rfl
  have hresident : key ∈ call.state.keys := hstate ▸ List.mem_singleton.mpr rfl
  have hvalue : call.value = .error (.error (.malformedChain (.tooFewEntries 0))) := rfl
  obtain ⟨-, -, -, -, -, -, -, -, -, hbroken, hleft⟩ :=
    attest_reported Script.barren.collaborators (.ofNat 7) .standard request s .start
  refine ⟨hresident, hvalue, ?_⟩
  rcases hleft _ hdelete _ rfl hresident with h | h | ⟨f, h⟩
  · cases hvalue.symm.trans h
  · exact h
  · rcases hbroken _ _ h with h | h
    · cases hvalue.symm.trans h
    · cases hvalue.symm.trans h

/-- Collaborators whose keystore breaks off where it is to delete a key that it holds, and gives a
chain of two certificates for any other. -/
def Collaborators.jammed : Collaborators ScriptedStore where
  reply
    | .deleteKey key, s =>
      (if key ∈ s.resident then .error ⟨"delete fault"⟩ else .ok true, s)
    | .attestKey _ _, s => (.ok (.ok [[0], [0]]), s)
    | .decode _, s      =>
      let certificate : Certificate := ⟨[0], ⟨"", "", "", none⟩⟩
      (.ok (.ok [certificate, certificate]), s)
    | q, s              => Script.barren.reply q s

/-- **A deletion that breaks off is not reported**: a chain is reported as the last thing, the call
gives a fault instead, and the key is left behind without a word, although the keystore consents to
no deletion of a key that it holds. -/
theorem unreported_if_deletion_breaks_off :
    let call := (attest (.ofNat 7) .standard (.ofTypes [.serial] [])).run.run
      Collaborators.jammed ⟨[], []⟩ .start
    let key := aliasText (.ofNat 7) .standard 1
    let named := ("alias", Event.FieldValue.text key)
    (∀ s k, (Collaborators.jammed.reply (.deleteKey k) s).1 = .ok true →
        k ∉ (Collaborators.jammed.reply (.deleteKey k) s).2.keys) ∧
      (∃ x ∈ call.exchanges, x.1.generates) ∧
      call.Reports .info "device identifier attestation complete"
        [named, ("certificates", .count 2)] ∧
      call.value = .error (.fault "delete fault") ∧
      call.events.getLast? = some (.completed key 2) ∧
      key ∈ call.state.keys ∧
      ¬ call.Reports .warn
        "failed to remove temporary attestation key; key may remain in keystore" [named] := by
  intro call key named
  have hevents : call.events =
      [.clearing key, .generated key 0 0, .attested key 2, .completed key 2] := rfl
  have hexchanges : call.exchanges.any (·.1.generates) = true := rfl
  have hstate : call.state = ⟨[key], []⟩ := rfl
  have hconsent : ∀ s k, (Collaborators.jammed.reply (.deleteKey k) s).1 = .ok true →
      k ∉ (Collaborators.jammed.reply (.deleteKey k) s).2.keys := by
    intro s k h hk
    have hheld : k ∈ s.resident := hk
    have hbroken : (Collaborators.jammed.reply (.deleteKey k) s).1 = .error ⟨"delete fault"⟩ :=
      if_pos hheld
    cases hbroken.symm.trans h
  refine ⟨hconsent, List.any_eq_true.mp hexchanges, (reports_iff_mem (.completed key 2)).mpr ?_,
    rfl, ?_, ?_, (reports_iff_mem (.leftBehind key)).not.mpr ?_⟩
  · simp [hevents]
  · exact congrArg List.getLast? hevents
  · exact hstate ▸ List.mem_singleton.mpr rfl
  · simp [hevents]

end DeviceAttest
