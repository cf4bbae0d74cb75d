import DeviceAttest.Named

/-!
# Key parameter tags

A tag's full value is a type in the four high bits and a number below them; the number is what an
authorization list of the attestation extension carries.  `IdTag` names the eight tags of attested
identifiers, whose numbers are consecutive from 710.
-/

namespace DeviceAttest

/-- The tags that key parameters on the attestation path carry. -/
inductive Tag where
  | purpose | algorithm | keySize | digest | padding | rsaPublicExponent | noAuthRequired
  | attestationChallenge
  | attestationIdBrand | attestationIdDevice | attestationIdProduct | attestationIdSerial
  | attestationIdImei | attestationIdMeid | attestationIdManufacturer | attestationIdModel
  deriving DecidableEq

namespace Tag

/-- The type that the four high bits of a tag value state. -/
inductive Kind where
  | enumeration | repeatedEnumeration | unsigned | unsignedLong | flag | bytes

/-- The type bits in place. -/
def Kind.bits : Kind → UInt32
  | enumeration         => 0x10000000
  | repeatedEnumeration => 0x20000000
  | unsigned            => 0x30000000
  | unsignedLong        => 0x50000000
  | flag                => 0x70000000
  | bytes               => 0x90000000

/-- The type of a tag's parameter. -/
def kind : Tag → Kind
  | purpose           => .repeatedEnumeration
  | algorithm         => .enumeration
  | keySize           => .unsigned
  | digest            => .repeatedEnumeration
  | padding           => .repeatedEnumeration
  | rsaPublicExponent => .unsignedLong
  | noAuthRequired    => .flag
  | _                 => .bytes

/-- The tag number, without the type bits. -/
def number : Tag → UInt32
  | purpose                   => 1
  | algorithm                 => 2
  | keySize                   => 3
  | digest                    => 5
  | padding                   => 6
  | rsaPublicExponent         => 200
  | noAuthRequired            => 503
  | attestationChallenge      => 708
  | attestationIdBrand        => 710
  | attestationIdDevice       => 711
  | attestationIdProduct      => 712
  | attestationIdSerial       => 713
  | attestationIdImei         => 714
  | attestationIdMeid         => 715
  | attestationIdManufacturer => 716
  | attestationIdModel        => 717

/-- The full value: type bits and number. -/
def value (t : Tag) : UInt32 := t.kind.bits ||| t.number

/-- The number is what is left of the value below the type bits. -/
theorem value_and_mask (t : Tag) : t.value &&& 0x0fffffff = t.number := by cases t <;> rfl

end Tag

instance : Named Tag where
  all :=
    [.purpose, .algorithm, .keySize, .digest, .padding, .rsaPublicExponent, .noAuthRequired,
     .attestationChallenge, .attestationIdBrand, .attestationIdDevice, .attestationIdProduct,
     .attestationIdSerial, .attestationIdImei, .attestationIdMeid, .attestationIdManufacturer,
     .attestationIdModel]
  name
    | .purpose                   => "Purpose"
    | .algorithm                 => "Algorithm"
    | .keySize                   => "KeySize"
    | .digest                    => "Digest"
    | .padding                   => "Padding"
    | .rsaPublicExponent         => "RsaPublicExponent"
    | .noAuthRequired            => "NoAuthRequired"
    | .attestationChallenge      => "AttestationChallenge"
    | .attestationIdBrand        => "AttestationIdBrand"
    | .attestationIdDevice       => "AttestationIdDevice"
    | .attestationIdProduct      => "AttestationIdProduct"
    | .attestationIdSerial       => "AttestationIdSerial"
    | .attestationIdImei         => "AttestationIdImei"
    | .attestationIdMeid         => "AttestationIdMeid"
    | .attestationIdManufacturer => "AttestationIdManufacturer"
    | .attestationIdModel        => "AttestationIdModel"
  find_name a := by cases a <;> rfl

/-- The identifiers that an attestation may carry, in ascending tag order. -/
inductive IdTag where
  | brand | device | product | serial | imei | meid | manufacturer | model
  deriving DecidableEq

instance : Named IdTag where
  all := [.brand, .device, .product, .serial, .imei, .meid, .manufacturer, .model]
  name
    | .brand        => "Brand"
    | .device       => "Device"
    | .product      => "Product"
    | .serial       => "Serial"
    | .imei         => "Imei"
    | .meid         => "Meid"
    | .manufacturer => "Manufacturer"
    | .model        => "Model"
  find_name a := by cases a <;> rfl

namespace IdTag

/-- All identifier tags, in ascending order. -/
def all : List IdTag := Named.all

/-- The tags of the build metadata that every attestation carries. -/
def metadata : List IdTag := [brand, device, product, manufacturer, model]

/-- The parameter tag of an identifier. -/
def tag : IdTag → Tag
  | brand        => .attestationIdBrand
  | device       => .attestationIdDevice
  | product      => .attestationIdProduct
  | serial       => .attestationIdSerial
  | imei         => .attestationIdImei
  | meid         => .attestationIdMeid
  | manufacturer => .attestationIdManufacturer
  | model        => .attestationIdModel

/-- The number under which an authorization list holds an identifier. -/
def number (id : IdTag) : UInt32 := id.tag.number

/-- The identifier that an authorization list holds under a number. -/
def ofNumber? (n : UInt32) : Option IdTag := all.find? fun id => id.number == n

theorem ofNumber?_number (id : IdTag) : ofNumber? id.number = some id := by cases id <;> rfl

end IdTag

end DeviceAttest
