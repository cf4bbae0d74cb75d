import DeviceAttest.Proofs.Call.Residents

/-!
# What a call is asked for

A demand asks for a request (`Demand.Asks`), directly or by codes, or it has a code that is not
known (`Demand.Unknown`); one of the two it does (`Demand.unknown_or_asks`).  A call with an unknown
code ends before its first step (`Call.run_of_unknown`), and any other one attests the request that
it is asked for, in whatever order and however often the codes name its identifiers
(`Call.run_of_asks`).
-/

namespace DeviceAttest

/-! ### Codes -/

/-- A code is known if it stands for an identifier. -/
def Known (code : Int32) : Prop := ∃ type : IdentifierType, code = type.code

theorem ofCode?_eq_some_iff {code : Int32} {type : IdentifierType} :
    IdentifierType.ofCode? code = some type ↔ code = type.code := by
  constructor
  · intro h
    unfold IdentifierType.ofCode? at h
    split at h
    · cases h
      assumption
    split at h
    · cases h
      assumption
    split at h
    · cases h
      assumption
    · cases h
  · rintro rfl
    exact type.ofCode?_code

theorem known_iff {code : Int32} : Known code ↔ (IdentifierType.ofCode? code).isNone = false := by
  rw [Option.isNone_eq_false_iff, Option.isSome_iff_exists]
  exact exists_congr fun _ => ofCode?_eq_some_iff.symm

/-! ### Demands -/

/-- A demand is for a request: for that very one, or for the identifiers of its codes, all of which
are known. -/
inductive Demand.Asks : Demand → Request → Prop where
  | request (request : Request) : Asks (.request request) request
  | codes {codes : List Int32} {request : Request} (known : ∀ code ∈ codes, Known code)
      (types : ∀ type, request.contains type = true ↔ type.code ∈ codes) :
      Asks (.codes codes request.challenge) request

/-- The first code of a demand that is not known. -/
inductive Demand.Unknown : Demand → Int32 → Prop where
  | codes {before after : List Int32} {code : Int32} {challenge : Bytes}
      (known : ∀ code ∈ before, Known code) (unknown : ¬ Known code) :
      Unknown (.codes (before ++ code :: after) challenge) code

/-! ### Requests by code -/

theorem ofCodes_of_unknown {before after : List Int32} {code : Int32} (challenge : Bytes)
    (known : ∀ code ∈ before, Known code) (unknown : ¬ Known code) :
    Request.ofCodes (before ++ code :: after) challenge = .error code := by
  have hfind : (before ++ code :: after).find? (fun code => (IdentifierType.ofCode? code).isNone) =
      some code := by
    refine List.find?_eq_some_iff_append.mpr ⟨?_, before, after, rfl, fun c hc => ?_⟩
    · rwa [known_iff, Bool.not_eq_false] at unknown
    · rw [known_iff.mp (known c hc)]
      rfl
  rw [Request.ofCodes, hfind]

/-- The identifiers of some codes are those with one of the codes. -/
theorem contains_ofTypes_codes (codes : List Int32) (challenge : Bytes) (type : IdentifierType) :
    (Request.ofTypes (codes.filterMap IdentifierType.ofCode?) challenge).contains type = true ↔
      type.code ∈ codes := by
  refine (IdentifierSet.contains_ofList _ type).trans (List.mem_filterMap.trans ?_)
  constructor
  · rintro ⟨code, hcode, h⟩
    exact ofCode?_eq_some_iff.mp h ▸ hcode
  · exact fun h => ⟨type.code, h, type.ofCode?_code⟩

theorem ofCodes_of_known {codes : List Int32} (challenge : Bytes)
    (known : ∀ code ∈ codes, Known code) :
    Request.ofCodes codes challenge =
      .ok (.ofTypes (codes.filterMap IdentifierType.ofCode?) challenge) := by
  have hfind : codes.find? (fun code => (IdentifierType.ofCode? code).isNone) = none := by
    refine List.find?_eq_none.mpr fun c hc => ?_
    rw [known_iff.mp (known c hc)]
    exact Bool.false_ne_true
  rw [Request.ofCodes, hfind]

/-! ### Calls by code -/

/-- Every demand has an unknown code or asks for a request. -/
theorem Demand.unknown_or_asks (demand : Demand) :
    (∃ code, demand.Unknown code) ∨ ∃ request, demand.Asks request := by
  cases demand with
  | request request => exact .inr ⟨request, .request request⟩
  | codes codes challenge =>
    cases hfind : codes.find? (fun code => (IdentifierType.ofCode? code).isNone) with
    | some code =>
      obtain ⟨hcode, before, after, rfl, hbefore⟩ := List.find?_eq_some_iff_append.mp hfind
      refine .inl ⟨code, .codes (fun c hc => known_iff.mpr ?_) fun hknown => ?_⟩
      · exact Bool.not_eq_eq_eq_not.mp (hbefore c hc)
      · cases hcode.symm.trans (known_iff.mp hknown)
    | none =>
      have known : ∀ code ∈ codes, Known code := fun code hcode =>
        known_iff.mpr (Bool.not_eq_true _ ▸ List.find?_eq_none.mp hfind code hcode)
      exact .inr ⟨_, .codes known (contains_ofTypes_codes codes challenge)⟩

section

variable {σ : Type} {process : ProcessLabel} {call : Call σ} {s : σ} {n : AliasSequence}

/-- A call with an unknown code ends before it begins. -/
theorem Call.run_of_unknown {code : Int32} (h : call.demand.Unknown code) :
    call.run process s n =
      ⟨.error (.error (.invalidArgument (.unknownIdentifier code))), s, n, []⟩ := by
  obtain ⟨c, settings, demand⟩ := call
  cases h with
  | @codes before after _ challenge known unknown =>
    show (attestCodes process settings _ challenge).run.run c s n = _
    rw [attestCodes, ofCodes_of_unknown challenge known unknown]
    rfl

/-- A call that asks for a request attests it. -/
theorem Call.run_of_asks {request : Request} (h : call.demand.Asks request) :
    call.run process s n =
      (attest process call.settings request).run.run call.collaborators s n := by
  obtain ⟨c, settings, demand⟩ := call
  cases h with
  | request => rfl
  | @codes codes request known types =>
    have hrequest : Request.ofTypes (codes.filterMap IdentifierType.ofCode?) request.challenge =
        request :=
      congrArg (Request.mk · request.challenge) <| IdentifierSet.ext_contains fun type =>
        Bool.eq_iff_iff.mpr <| (contains_ofTypes_codes codes request.challenge type).trans
          (types type).symm
    show (attestCodes process settings codes request.challenge).run.run c s n = _
    rw [attestCodes, ofCodes_of_known request.challenge known, hrequest]

end

end DeviceAttest
