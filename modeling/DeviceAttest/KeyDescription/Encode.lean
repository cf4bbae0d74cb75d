import DeviceAttest.Der.Element
import DeviceAttest.Der.Integer
import DeviceAttest.KeyDescription.Basic

/-!
# Writing key descriptions

A key description is written as a SEQUENCE of eight elements, each in its shortest spelling.  The
first authorization list is empty and the second one holds all attested identifiers, in ascending
tag order, each as an OCTET STRING inside an element that carries the identifier's tag.
-/

namespace DeviceAttest

open Der (Element)

namespace Der

/-- The tag number of INTEGER. -/
def integerNumber : UInt32 := 2

/-- The tag number of OCTET STRING. -/
def octetStringNumber : UInt32 := 4

/-- The tag number of ENUMERATED. -/
def enumeratedNumber : UInt32 := 10

/-- The tag number of SEQUENCE. -/
def sequenceNumber : UInt32 := 16

/-- An INTEGER element. -/
def integer (n : Int64) : Element := ⟨.universal, false, integerNumber, Integer.content n⟩

/-- An ENUMERATED element. -/
def enumerated (n : Int64) : Element := ⟨.universal, false, enumeratedNumber, Integer.content n⟩

/-- An OCTET STRING element. -/
def octetString (s : Bytes) : Element := ⟨.universal, false, octetStringNumber, s⟩

/-- A SEQUENCE element of the given elements. -/
def sequence (elements : List Element) : Element :=
  ⟨.universal, true, sequenceNumber, elements.flatMap Element.write⟩

end Der

namespace AttestedIds

/-- The element that holds one attested identifier. -/
def element (entry : IdTag × Bytes) : Element :=
  ⟨.contextSpecific, true, entry.1.number, (Der.octetString entry.2).write⟩

/-- The elements of all attested identifiers. -/
def elements (ids : AttestedIds) : List Element := ids.toList.map element

end AttestedIds

namespace KeyDescription

/-- The eight elements of a key description. -/
def elements (d : KeyDescription) : List Element :=
  [Der.integer d.attestationVersion, Der.enumerated d.attestationLevel.toInt64,
   Der.integer d.keymasterVersion, Der.enumerated d.keymasterLevel.toInt64,
   Der.octetString d.challenge, Der.octetString d.uniqueId,
   Der.sequence [], Der.sequence d.attestedIds.elements]

/-- The octets inside the outer SEQUENCE. -/
def body (d : KeyDescription) : Bytes := d.elements.flatMap Element.write

/-- The encoding of a key description. -/
def encode (d : KeyDescription) : Bytes := (Der.sequence d.elements).write

end KeyDescription

end DeviceAttest
