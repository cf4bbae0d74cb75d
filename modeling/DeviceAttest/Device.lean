import DeviceAttest.Key.Param

/-!
# Devices with fixed identifiers

A device whose identifiers are known beforehand, and the build metadata that is attested with every
request.
-/

namespace DeviceAttest

/-- The build metadata of a device. -/
structure BuildProperties where
  brand : String
  device : String
  product : String
  manufacturer : String
  model : String
  deriving DecidableEq

namespace BuildProperties

/-- Build metadata that says nothing. -/
def empty : BuildProperties := ⟨"", "", "", "", ""⟩

/-- The values with the tags under which they are attested. -/
def entries (b : BuildProperties) : List (IdTag × String) :=
  [(.brand, b.brand), (.device, b.device), (.product, b.product),
   (.manufacturer, b.manufacturer), (.model, b.model)]

/-- The parameters under which the values are attested. -/
def params (b : BuildProperties) : List KeyParam :=
  b.entries.map fun (id, value) => .attestationId id (Bytes.ofText value)

end BuildProperties

/-- A device whose identifiers are fixed. -/
structure Device where
  serial : String
  /-- The identifier of each telephony slot. -/
  imeis : List String
  meid : Option String
  telephonyAvailable : Bool
  properties : BuildProperties
  deriving DecidableEq

namespace Device

/-- A device without telephony. -/
def new (serial : String) (properties : BuildProperties) : Device :=
  ⟨serial, [], none, false, properties⟩

/-- The device with a telephony service that knows the given identifiers. -/
def withTelephony (d : Device) (imeis : List String) (meid : Option String) : Device :=
  { d with imeis, meid, telephonyAvailable := true }

/-- The identifier of a telephony slot. -/
def imei? (d : Device) (slot : UInt32) : Option String := d.imeis[slot.toNat]?

end Device

end DeviceAttest
