import DeviceAttest.Call.Attest
import DeviceAttest.Proofs.Call.Path

/-!
# Collecting asks only the source

Before an alias is drawn a call only collects what is to be attested.  Whatever the source replies,
every step of that is a question to it (`always_collectParams`): no keystore, no decoder, no number
of the alias sequence and no event.

The telephony service is asked for before anything is read, and has to be at hand again wherever one
of its identifiers is.  That second check cannot fail: a collection is the same as the direct one,
which does without it (`Attest.collectParams_eq`).
-/

namespace DeviceAttest

/-- Whether a question goes to the source. -/
def Query.ofSource : Query → Bool
  | telephony       => true
  | serial          => true
  | imei _          => true
  | meid            => true
  | buildProperties => true
  | _               => false

/-- A step asks the source. -/
def Step.OfSource : Step → Prop
  | .call q _ => q.ofSource
  | _         => False

namespace Attest

open Program

/-! ### Collecting directly -/

/-- Reads one identifier from the source, whether or not a telephony service is at hand. -/
def readDirectly (slot : UInt32) : IdentifierType → Attempt String
  | .serial => do
    Attempt.accept .ofSource (← Attempt.answer (.query .serial))
  | .imei   => do
    let value ← Attempt.accept .ofSource (← Attempt.answer (.query (.imei slot)))
    Attempt.require (.identifierUnavailable (.identifier .imei)) value
  | .meid   => do
    let value ← Attempt.accept .ofSource (← Attempt.answer (.query .meid))
    Attempt.require (.identifierUnavailable (.identifier .meid)) value

/-- Reads identifiers in order, and makes parameters of them. -/
def readAllDirectly (slot : UInt32) : List IdentifierType → Attempt (List KeyParam)
  | []            => pure []
  | type :: types => do
    let value ← readDirectly slot type
    let later ← readAllDirectly slot types
    pure (.attestationId type.idTag (Bytes.ofText value) :: later)

/-- Reads the identifiers of a request and the build metadata. -/
def gatherDirectly (slot : UInt32) (request : Request) : Attempt AuthorizationSet := do
  let ids ← readAllDirectly slot request.identifierTypes
  let build ← Attempt.answer (.query .buildProperties)
  pure (.ofList (.attestationChallenge request.challenge :: (ids ++ build.params)))

/-- Collects what is to be attested, and asks for the telephony service only at the beginning. -/
def collectDirectly (slot : UInt32) (request : Request) : Attempt AuthorizationSet := do
  if request.requiresTelephony then requireTelephony
  gatherDirectly slot request

/-- Where the service is at hand if it is needed, the check of a read changes nothing. -/
theorem readIdentifier_eq (slot : UInt32) {service : Option TelephonyService}
    {type : IdentifierType} (h : type.requiresTelephony = true → service = some ()) :
    readIdentifier slot service type = readDirectly slot type := by
  cases type with
  | serial => rfl
  | imei => rw [h rfl]; rfl
  | meid => rw [h rfl]; rfl

theorem readIdentifiers_eq (slot : UInt32) {service : Option TelephonyService}
    {types : List IdentifierType}
    (h : ∀ type ∈ types, type.requiresTelephony = true → service = some ()) :
    readIdentifiers slot service types = readAllDirectly slot types := by
  induction types with
  | nil => rfl
  | cons type types ih =>
    obtain ⟨hfirst, hlater⟩ := List.forall_mem_cons.mp h
    rw [readIdentifiers, readAllDirectly, readIdentifier_eq slot hfirst, ih hlater]

/-- **The second check cannot fail**: without it, the collection is the same. -/
theorem collectParams_eq (slot : UInt32) (request : Request) :
    collectParams slot request = collectDirectly slot request := by
  unfold collectParams collectDirectly gatherDirectly
  by_cases h : request.requiresTelephony = true
  · simp only [if_pos h, map_eq_pure_bind, bind_assoc, pure_bind]
    refine bind_congr fun service => ?_
    rw [readIdentifiers_eq slot fun _ _ _ => rfl]
  · have hnone : ∀ type ∈ request.identifierTypes, type.requiresTelephony = true →
        (none : Option TelephonyService) = some () := fun type htype ht =>
      absurd (List.any_eq_true.mpr ⟨type, htype, ht⟩) h
    simp only [if_neg h, pure_bind]
    rw [readIdentifiers_eq slot hnone]

/-! ### Questions to the source -/

theorem always_readDirectly (slot : UInt32) (type : IdentifierType) :
    Always Step.OfSource (readDirectly slot type).run := by
  cases type with
  | serial =>
    exact Attempt.always_bind (Attempt.always_answer (always_query fun _ => rfl)) fun _ =>
      Attempt.always_accept _ _
  | imei =>
    refine Attempt.always_bind (Attempt.always_answer (always_query fun _ => rfl)) fun _ => ?_
    exact Attempt.always_bind (Attempt.always_accept _ _) fun _ => Attempt.always_require _ _
  | meid =>
    refine Attempt.always_bind (Attempt.always_answer (always_query fun _ => rfl)) fun _ => ?_
    exact Attempt.always_bind (Attempt.always_accept _ _) fun _ => Attempt.always_require _ _

theorem always_readAllDirectly (slot : UInt32) (types : List IdentifierType) :
    Always Step.OfSource (readAllDirectly slot types).run := by
  induction types with
  | nil => exact Attempt.always_pure _
  | cons type types ih =>
    refine Attempt.always_bind (always_readDirectly slot type) fun _ => ?_
    exact Attempt.always_bind ih fun _ => Attempt.always_pure _

theorem always_requireTelephony : Always Step.OfSource requireTelephony.run := by
  exact Attempt.always_bind (Attempt.always_answer (always_query fun _ => rfl)) fun _ =>
    Attempt.always_require _ _

theorem always_gatherDirectly (slot : UInt32) (request : Request) :
    Always Step.OfSource (gatherDirectly slot request).run := by
  refine Attempt.always_bind (always_readAllDirectly slot _) fun _ => ?_
  exact Attempt.always_bind (Attempt.always_answer (always_query fun _ => rfl)) fun _ =>
    Attempt.always_pure _

/-- Collecting asks only the source. -/
theorem always_collectParams (slot : UInt32) (request : Request) :
    Always Step.OfSource (collectParams slot request).run := by
  rw [collectParams_eq, collectDirectly]
  by_cases h : request.requiresTelephony
  · rw [if_pos h]
    exact Attempt.always_bind always_requireTelephony fun _ => always_gatherDirectly slot request
  · rw [if_neg h]
    exact always_gatherDirectly slot request

end Attest

end DeviceAttest
