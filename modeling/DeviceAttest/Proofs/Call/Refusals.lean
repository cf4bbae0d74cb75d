import DeviceAttest.Proofs.Call.Outcome
import DeviceAttest.Proofs.Json.Form
import DeviceAttest.Json.Data

/-!
# Statuses of refusals

A status comes from a number, directly or by a check, from a name or from a document
(`StatusCode.Origin`).  It stands for a failure exactly if it does not come from a document that
spells zero (`StatusCode.Origin.isFailure_iff`): such a document is read as the status of success.

A call passes on the status with which its keystore refuses, and that one only
(`exists_refusal_of_attest`).  So the statuses that calls report are no better than those that
keystores find (`status_failure_iff`).
-/

namespace DeviceAttest

open JsonForm

/-! ### Where statuses come from -/

namespace StatusCode

/-- A status stands for a failure: it is not success, and checking its number gives it back. -/
def IsFailure (code : StatusCode) : Prop := code.raw ≠ success ∧ check code.raw = .error code

theorem new?_eq_some_iff {raw : Int32} {code : StatusCode} :
    new? raw = some code ↔ code.raw ≠ success ∧ code.raw = raw := by
  rw [new?, Option.ite_none_left_eq_some]
  constructor
  · rintro ⟨h, ⟨⟩⟩
    exact ⟨h, rfl⟩
  · rintro ⟨h, rfl⟩
    exact ⟨h, rfl⟩

theorem check_eq_error_iff {raw : Int32} {code : StatusCode} :
    check raw = .error code ↔ new? raw = some code := by
  unfold check
  cases new? raw with
  | none => exact ⟨nofun, nofun⟩
  | some found => rw [Except.error.injEq, Option.some_inj]

theorem isFailure_iff {code : StatusCode} : code.IsFailure ↔ code.raw ≠ success := by
  rw [IsFailure, check_eq_error_iff, new?_eq_some_iff]
  exact and_iff_left_of_imp fun h => ⟨h, rfl⟩

/-- Where a status comes from. -/
inductive Origin where
  | number (raw : Int32)
  | checked (raw : Int32)
  | known (failure : Known)
  | document (text : String)

namespace Origin

/-- The status that is obtained, if there is one. -/
def status? : Origin → Option StatusCode
  | number raw    => new? raw
  | checked raw   =>
    match check raw with
    | .ok _       => none
    | .error code => some code
  | known failure => some failure.status
  | document text => read? text

/-- A document whose value is zero. -/
def SpellsZero : Origin → Prop
  | document text => Json.read? text = some (.integer 0)
  | _             => False

end Origin

/-- A status is read exactly from its number. -/
theorem ofJson?_eq_some_iff {j : Json} {code : StatusCode} :
    ofJson? j = some code ↔ j = .integer code.raw.toInt := by
  show ((integer? _ _ j).map Int32.ofInt).map StatusCode.mk = some code ↔ _
  rw [Option.map_map, Option.map_eq_some_iff]
  constructor
  · rintro ⟨n, hn, rfl⟩
    obtain ⟨rfl, hlow, hhigh⟩ := integer?_eq_some_iff.mp hn
    exact congrArg Json.integer (Int32.toInt_ofInt_of_le (by omega) (by omega)).symm
  · rintro rfl
    have hlow := code.raw.le_toInt
    have hhigh := code.raw.toInt_lt
    exact ⟨_, integer?_integer (by omega) (by omega),
      congrArg StatusCode.mk (Int32.ofInt_toInt code.raw)⟩

theorem raw_eq_success_iff {code : StatusCode} : code.raw = success ↔ code.raw.toInt = 0 :=
  Int32.toInt_inj.symm

/-- **A status stands for a failure** unless a document spells it as zero. -/
theorem Origin.isFailure_iff {origin : Origin} {code : StatusCode}
    (h : origin.status? = some code) : code.IsFailure ↔ ¬ origin.SpellsZero := by
  rw [StatusCode.isFailure_iff]
  cases origin with
  | number raw => exact iff_of_true (new?_eq_some_iff.mp h).1 id
  | checked raw =>
    have hcheck : check raw = .error code := by
      rw [status?] at h
      cases hcheck : check raw with
      | ok => rw [hcheck] at h; cases h
      | error found => rw [hcheck] at h; exact congrArg Except.error (Option.some.inj h)
    exact iff_of_true (new?_eq_some_iff.mp (check_eq_error_iff.mp hcheck)).1 id
  | known failure =>
    cases h
    refine iff_of_true ?_ id
    cases failure <;> decide
  | document text =>
    obtain ⟨j, htext, hj⟩ := Option.bind_eq_some_iff.mp h
    obtain rfl := ofJson?_eq_some_iff.mp hj
    rw [SpellsZero, htext, Option.some_inj, Json.integer.injEq]
    exact not_congr raw_eq_success_iff

end StatusCode

/-! ### Refusals of a keystore -/

/-- What a keystore refuses to do in an exchange, and with which status. -/
def Exchange.refusal? : Exchange → Option (KeystoreOperation × StatusCode)
  | ⟨.generateKey _ _, .ok (.error code)⟩ => some (.generate, code)
  | ⟨.attestKey _ _, .ok (.error code)⟩   => some (.attest, code)
  | _                                     => none

/-- Too few items are no error of a keystore. -/
theorem countError?_ne_keystore {α : Type} {fault : Nat → ChainFault} {items : List α}
    {operation : KeystoreOperation} {code : StatusCode} :
    (countError? fault items).map Failure.error ≠ some (.error (.keystore operation code)) := by
  unfold countError?
  split
  · exact nofun
  · exact nofun

/-- Only a refusal fails with the error of a keystore. -/
theorem Exchange.refusal?_of_failure? {x : Exchange} {operation : KeystoreOperation}
    {code : StatusCode} (h : x.failure? = some (.error (.keystore operation code))) :
    x.refusal? = some (operation, code) := by
  obtain ⟨q, reply⟩ := x
  cases q with
  | telephony =>
    rcases reply with f | _ | _ <;> cases h
  | serial =>
    rcases reply with f | ⟨⟨⟩⟩ | value <;> cases h
  | imei slot =>
    rcases reply with f | ⟨⟨⟩⟩ | _ | value <;> cases h
  | meid =>
    rcases reply with f | ⟨⟨⟩⟩ | _ | value <;> cases h
  | buildProperties =>
    rcases reply with f | build <;> cases h
  | deleteKey key =>
    rcases reply with f | _ | _ <;> cases h
  | generateKey key params =>
    rcases reply with f | refused | made <;> cases h
    rfl
  | attestKey key params =>
    rcases reply with f | refused | entries
    · cases h
    · cases h
      rfl
    · exact absurd h countError?_ne_keystore
  | decode stream =>
    rcases reply with f | cause | certificates
    · cases h
    · cases h
    · exact absurd h countError?_ne_keystore

section

variable {σ : Type} (c : Collaborators σ) (process : ProcessLabel) (settings : AttestationSettings)
  (request : Request) (s : σ) (n : AliasSequence)

/-- **A call reports the status of a refusal**: its keystore refused with it. -/
theorem exists_refusal_of_attest {operation : KeystoreOperation} {code : StatusCode}
    (h : ((attest process settings request).run.run c s n).value =
      .error (.error (.keystore operation code))) :
    ∃ x ∈ ((attest process settings request).run.run c s n).exchanges,
      x.refusal? = some (operation, code) := by
  have hclean : ((attest process settings request).run.run c s n).CleansUp :=
    cleansUp_attest c process settings request s n (by rw [h]; exact nofun) (by rw [h]; exact nofun)
  have hdecides : Decides ((attest process settings request).run.run c s n).decisive _ :=
    decides_attest c process settings request s n hclean
  rw [h] at hdecides
  obtain ⟨before, x, hdecisive, -, hx⟩ := hdecides
  have hmem : x ∈ ((attest process settings request).run.run c s n).decisive := by
    rw [hdecisive]
    exact List.mem_append_right _ List.mem_cons_self
  refine ⟨x, ?_, Exchange.refusal?_of_failure? hx⟩
  rw [Run.decisive] at hmem
  split at hmem
  · exact (List.dropLast_sublist _).subset hmem
  · exact hmem

end

/-- **Statuses stand for failures**, unless a document spells one as zero.  A call reports a status
only if its keystore refused with it, so it reports a failure if no such document is where the
statuses of its keystore come from. -/
theorem status_failure_iff {σ : Type} (c : Collaborators σ) (process : ProcessLabel)
    (settings : AttestationSettings) (request : Request) (s : σ) (n : AliasSequence) :
    let call := (attest process settings request).run.run c s n
    (∀ (origin : StatusCode.Origin) (code : StatusCode), origin.status? = some code →
      (code.IsFailure ↔ ¬ origin.SpellsZero)) ∧
    ∀ operation code, call.value = .error (.error (.keystore operation code)) →
      (∃ x ∈ call.exchanges, x.refusal? = some (operation, code)) ∧
      ((∀ x ∈ call.exchanges, ∀ operation code, x.refusal? = some (operation, code) →
        ∃ origin : StatusCode.Origin, origin.status? = some code ∧ ¬ origin.SpellsZero) →
        code.IsFailure) := by
  intro call
  refine ⟨fun _ _ => StatusCode.Origin.isFailure_iff, fun operation code hvalue => ?_⟩
  obtain ⟨x, hx, hrefusal⟩ := exists_refusal_of_attest c process settings request s n hvalue
  refine ⟨⟨x, hx, hrefusal⟩, fun horigins => ?_⟩
  obtain ⟨origin, hstatus, hzero⟩ := horigins x hx operation code hrefusal
  exact (StatusCode.Origin.isFailure_iff hstatus).mpr hzero

/-- A device without telephony, with a keystore that refuses to generate a key. -/
def Collaborators.refusing (code : StatusCode) : Collaborators ScriptedStore where
  reply
    | .generateKey _ _, s => (.ok (.error code), s)
    | q, s                => Script.barren.reply q s

/-- Identifiers that a device cannot attest: the keystore has the status from a document. -/
theorem status_failure_iff_refusing :
    let code := StatusCode.Known.cannotAttestIds.status
    let call := (attest (.ofNat 7) .standard (.ofTypes [.serial] [])).run.run
      (Collaborators.refusing code) ⟨[], []⟩ .start
    (StatusCode.Origin.document "-66").status? = some code ∧
      call.value = .error (.error (.keystore .generate code)) ∧
      (∃ x ∈ call.exchanges, x.refusal? = some (.generate, code)) ∧ code.IsFailure := by
  intro code call
  have hstatus : (StatusCode.Origin.document "-66").status? = some code := by
    decide +kernel
  have hzero : ¬ (StatusCode.Origin.document "-66").SpellsZero :=
    (StatusCode.Origin.isFailure_iff hstatus).mp (StatusCode.isFailure_iff.mpr (by decide))
  have hvalue : call.value = .error (.error (.keystore .generate code)) := rfl
  have hrefusals : call.exchanges.filterMap Exchange.refusal? = [(.generate, code)] := rfl
  obtain ⟨-, hcalls⟩ := status_failure_iff (Collaborators.refusing code) (.ofNat 7) .standard
    (.ofTypes [.serial] []) ⟨[], []⟩ .start
  obtain ⟨hrefusal, hfailure⟩ := hcalls _ _ hvalue
  refine ⟨hstatus, hvalue, hrefusal, hfailure fun x hx operation found hx' => ?_⟩
  have hmem : (operation, found) ∈ call.exchanges.filterMap Exchange.refusal? :=
    List.mem_filterMap.mpr ⟨x, hx, hx'⟩
  rw [hrefusals, List.mem_singleton] at hmem
  cases hmem
  exact ⟨_, hstatus, hzero⟩

/-- A document that spells zero is read as a status that is checked as success, and a keystore may
refuse with it. -/
theorem success_reported_as_failure :
    let code : StatusCode := ⟨StatusCode.success⟩
    let call := (attest (.ofNat 7) .standard (.ofTypes [.serial] [])).run.run
      (Collaborators.refusing code) ⟨[], []⟩ .start
    (StatusCode.Origin.document "0").status? = some code ∧
      StatusCode.check code.raw = .ok () ∧
      call.value = .error (.error (.keystore .generate code)) := by
  exact ⟨by decide +kernel, rfl, rfl⟩

end DeviceAttest
