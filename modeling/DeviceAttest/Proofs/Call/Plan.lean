import DeviceAttest.Proofs.Call.Collect
import DeviceAttest.Proofs.Call.Path
import Mathlib.Data.List.Infix
import Mathlib.Data.List.Nodup

/-!
# What is planned to be asked

The questions of a collection are known before the first of them is asked (`Attest.plan`): whether
there is a telephony service, if an identifier needs one, then each requested identifier, and the
build metadata.  A collection asks them in this order, and stops early only if it fails
(`Attest.follows_collectParams`).
-/

namespace DeviceAttest

open Program

/-! ### Attempts that follow a plan -/

/-- On every path the questions are the first ones of a plan, and on a path to a value all. -/
def Follows {α : Type} (x : Attempt α) (plan : List Query) : Prop :=
  ∀ steps r, Path x.run steps r →
    Step.queries steps <+: plan ∧ ∀ a, r = .ok a → Step.queries steps = plan

section

variable {α β : Type} {plan later : List Query}

theorem follows_pure (a : α) : Follows (pure a : Attempt α) [] := by
  intro steps r h
  obtain ⟨rfl, rfl⟩ := path_done.mp h
  exact ⟨List.prefix_rfl, fun _ _ => rfl⟩

/-- A question after which the attempt ends. -/
theorem follows_ask {q : Query} {next : q.Reply → Program (Except Failure α)}
    (h : ∀ reply, ∃ r, next reply = .done r) :
    Follows (ExceptT.mk (.ask q next) : Attempt α) [q] := by
  intro steps r hpath
  obtain ⟨reply, later, rfl, hlater⟩ := path_ask.mp hpath
  obtain ⟨r', hnext⟩ := h reply
  rw [hnext] at hlater
  obtain ⟨rfl, rfl⟩ := path_done.mp hlater
  exact ⟨List.prefix_rfl, fun _ _ => rfl⟩

theorem follows_bind {x : Attempt α} {f : α → Attempt β} (hx : Follows x plan)
    (hf : ∀ a, Follows (f a) later) : Follows (x >>= f) (plan ++ later) := by
  intro steps r h
  obtain ⟨a, front, back, rfl, h₁, h₂⟩ := path_bind.mp h
  obtain ⟨hbegin, hall⟩ := hx front a h₁
  rw [queries_append]
  cases a with
  | ok a =>
    obtain ⟨hlater, hend⟩ := hf a back r h₂
    rw [hall a rfl]
    exact ⟨(List.prefix_append_right_inj plan).mpr hlater, fun b hb => by rw [hend b hb]⟩
  | error e =>
    obtain ⟨rfl, rfl⟩ := path_done.mp h₂
    refine ⟨?_, fun b hb => by cases hb⟩
    show Step.queries front ++ [] <+: plan ++ later
    rw [List.append_nil]
    exact hbegin.trans (List.prefix_append _ _)

end

namespace Attest

/-! ### The plan of a collection -/

/-- The question for an identifier. -/
def question (slot : UInt32) : IdentifierType → Query
  | .serial => .serial
  | .imei   => .imei slot
  | .meid   => .meid

/-- The questions of a collection. -/
def plan (slot : UInt32) (request : Request) : List Query :=
  (if request.requiresTelephony then [.telephony] else []) ++
    (request.identifierTypes.map (question slot) ++ [.buildProperties])

section

variable {slot : UInt32} {request : Request} {asked : List Query}

theorem question_injective (slot : UInt32) : Function.Injective (question slot) := by
  intro a b h
  cases a <;> cases b <;> first | rfl | cases h

/-- The reads of a plan ask for identifiers. -/
theorem ne_of_mem_reads {types : List IdentifierType} {q : Query}
    (h : q ∈ types.map (question slot)) : q ≠ .telephony ∧ q ≠ .buildProperties := by
  obtain ⟨type, -, rfl⟩ := List.mem_map.mp h
  cases type <;> exact ⟨nofun, nofun⟩

theorem telephony_not_mem_reads (slot : UInt32) (request : Request) :
    .telephony ∉ request.identifierTypes.map (question slot) ++ [.buildProperties] := by
  intro h
  rcases List.mem_append.mp h with h | h
  · exact (ne_of_mem_reads h).1 rfl
  · cases List.mem_singleton.mp h

/-- No question is planned twice. -/
theorem nodup_plan (slot : UInt32) (request : Request) : (plan slot request).Nodup := by
  have htypes : request.identifierTypes.Nodup := List.Nodup.filter _ (by decide)
  have hreads : (request.identifierTypes.map (question slot) ++ [Query.buildProperties]).Nodup :=
    (htypes.map (question_injective slot)).append (List.nodup_singleton _) fun q hq hbuild =>
      (ne_of_mem_reads hq).2 (List.mem_singleton.mp hbuild)
  rw [plan]
  split
  · exact List.nodup_cons.mpr ⟨telephony_not_mem_reads slot request, hreads⟩
  · exact hreads

/-- Only a whole plan asks for the build metadata. -/
theorem eq_plan_of_buildProperties_mem (h : asked <+: plan slot request)
    (hmem : .buildProperties ∈ asked) : asked = plan slot request := by
  rw [plan, ← List.append_assoc] at h ⊢
  refine (List.prefix_concat_iff.mp h).resolve_right fun hfront => ?_
  rcases List.mem_append.mp (hfront.subset hmem) with hmem | hmem
  · split at hmem
    · cases List.mem_singleton.mp hmem
    · cases hmem
  · exact (ne_of_mem_reads hmem).2 rfl

/-- The telephony service is asked for if it is needed, and before all else. -/
theorem telephony_mem_iff (h : asked <+: plan slot request) (hne : asked ≠ []) :
    .telephony ∈ asked ↔ request.requiresTelephony = true := by
  constructor
  · intro hmem
    by_contra hnot
    have hplan := h.subset hmem
    rw [plan, if_neg hnot] at hplan
    exact telephony_not_mem_reads slot request hplan
  · intro hrequires
    obtain ⟨q, asked, rfl⟩ := List.exists_cons_of_ne_nil hne
    rw [plan, if_pos hrequires] at h
    obtain ⟨rfl, -⟩ := List.cons_prefix_cons.mp h
    exact List.mem_cons_self

theorem count_telephony (h : asked <+: plan slot request) (hne : asked ≠ []) :
    asked.count .telephony = if request.requiresTelephony then 1 else 0 := by
  have hiff := telephony_mem_iff h hne
  split
  next hrequires =>
    exact List.count_eq_one_of_mem (h.sublist.nodup (nodup_plan slot request))
      (hiff.mpr hrequires)
  next hnot => exact List.count_eq_zero.mpr fun hmem => hnot (hiff.mp hmem)

/-- Before the question for the telephony service there is none. -/
theorem eq_nil_of_telephony_last {before : List Query}
    (h : before ++ [.telephony] <+: plan slot request) : before = [] := by
  have hrequires : request.requiresTelephony = true :=
    (telephony_mem_iff h (List.append_ne_nil_of_right_ne_nil _ (List.cons_ne_nil _ _))).mp
      (List.mem_append_right _ List.mem_cons_self)
  cases before with
  | nil => rfl
  | cons q before =>
    -- it would be asked for at the front as well
    have hnodup := h.sublist.nodup (nodup_plan slot request)
    rw [plan, if_pos hrequires] at h
    obtain ⟨rfl, -⟩ := List.cons_prefix_cons.mp h
    exact absurd (List.mem_append_right _ List.mem_cons_self) (List.nodup_cons.mp hnodup).1

end

/-! ### Collecting by the plan -/

theorem follows_readDirectly (slot : UInt32) (type : IdentifierType) :
    Follows (readDirectly slot type) [question slot type] := by
  cases type with
  | serial =>
    refine follows_ask fun reply => ?_
    rcases reply with f | e | value <;> exact ⟨_, rfl⟩
  | imei | meid =>
    refine follows_ask fun reply => ?_
    rcases reply with f | e | _ | value <;> exact ⟨_, rfl⟩

theorem follows_readAllDirectly (slot : UInt32) (types : List IdentifierType) :
    Follows (readAllDirectly slot types) (types.map (question slot)) := by
  induction types with
  | nil => exact follows_pure _
  | cons type types ih =>
    have hlater (value : String) : Follows (do
        let later ← readAllDirectly slot types
        pure (.attestationId type.idTag (Bytes.ofText value) :: later))
        (types.map (question slot) ++ []) := follows_bind ih fun _ => follows_pure _
    have h := follows_bind (follows_readDirectly slot type) hlater
    rwa [List.append_nil] at h

theorem follows_requireTelephony : Follows requireTelephony [.telephony] := by
  refine follows_ask fun reply => ?_
  rcases reply with f | _ | _ <;> exact ⟨_, rfl⟩

theorem follows_buildProperties :
    Follows (Attempt.answer (.query .buildProperties) : Attempt BuildProperties)
      [.buildProperties] := by
  refine follows_ask fun reply => ?_
  rcases reply with f | build <;> exact ⟨_, rfl⟩

theorem follows_gatherDirectly (slot : UInt32) (request : Request) :
    Follows (gatherDirectly slot request)
      (request.identifierTypes.map (question slot) ++ [.buildProperties]) :=
  follows_bind (follows_readAllDirectly slot _) fun _ =>
    follows_bind follows_buildProperties fun _ => follows_pure _

/-- **A collection follows its plan.** -/
theorem follows_collectParams (slot : UInt32) (request : Request) :
    Follows (collectParams slot request) (plan slot request) := by
  rw [collectParams_eq, collectDirectly, plan]
  by_cases h : request.requiresTelephony
  · rw [if_pos h, if_pos h]
    exact follows_bind follows_requireTelephony fun _ => follows_gatherDirectly slot request
  · rw [if_neg h, if_neg h]
    exact follows_gatherDirectly slot request

end Attest

end DeviceAttest
