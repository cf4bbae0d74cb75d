import DeviceAttest.Bytes
import DeviceAttest.Key.Tag

/-!
# Key parameters and authorization sets

A key parameter is a tag with a value of the tag's type.  An authorization set is an ordered list
of parameters in which a tag may occur more than once; a look-up finds the first occurrence.
-/

namespace DeviceAttest

/-! ### Enumerated parameter values -/

/-- What a key may be used for. -/
inductive KeyPurpose where
  | encrypt | decrypt | sign | verify
  deriving DecidableEq

/-- The number of a purpose. -/
def KeyPurpose.code : KeyPurpose → UInt32
  | encrypt => 0
  | decrypt => 1
  | sign    => 2
  | verify  => 3

instance : Named KeyPurpose where
  all := [.encrypt, .decrypt, .sign, .verify]
  name
    | .encrypt => "Encrypt"
    | .decrypt => "Decrypt"
    | .sign    => "Sign"
    | .verify  => "Verify"
  find_name a := by cases a <;> rfl

/-- The algorithm of a key. -/
inductive Algorithm where
  | rsa | ec | aes | hmac
  deriving DecidableEq

/-- The number of an algorithm. -/
def Algorithm.code : Algorithm → UInt32
  | rsa  => 1
  | ec   => 3
  | aes  => 32
  | hmac => 128

instance : Named Algorithm where
  all := [.rsa, .ec, .aes, .hmac]
  name
    | .rsa  => "Rsa"
    | .ec   => "Ec"
    | .aes  => "Aes"
    | .hmac => "Hmac"
  find_name a := by cases a <;> rfl

/-- The padding that a key may be used with. -/
inductive PaddingMode where
  | none | rsaOaep | rsaPss | rsaPkcs115Encrypt | rsaPkcs115Sign | pkcs7
  deriving DecidableEq

/-- The number of a padding mode. -/
def PaddingMode.code : PaddingMode → UInt32
  | none              => 1
  | rsaOaep           => 2
  | rsaPss            => 3
  | rsaPkcs115Encrypt => 4
  | rsaPkcs115Sign    => 5
  | pkcs7             => 64

instance : Named PaddingMode where
  all := [.none, .rsaOaep, .rsaPss, .rsaPkcs115Encrypt, .rsaPkcs115Sign, .pkcs7]
  name
    | .none              => "None"
    | .rsaOaep           => "RsaOaep"
    | .rsaPss            => "RsaPss"
    | .rsaPkcs115Encrypt => "RsaPkcs115Encrypt"
    | .rsaPkcs115Sign    => "RsaPkcs115Sign"
    | .pkcs7             => "Pkcs7"
  find_name a := by cases a <;> rfl

/-- The digest that a key may be used with. -/
inductive Digest where
  | none | md5 | sha1 | sha224 | sha256 | sha384 | sha512
  deriving DecidableEq

/-- The number of a digest. -/
def Digest.code : Digest → UInt32
  | none   => 0
  | md5    => 1
  | sha1   => 2
  | sha224 => 3
  | sha256 => 4
  | sha384 => 5
  | sha512 => 6

instance : Named Digest where
  all := [.none, .md5, .sha1, .sha224, .sha256, .sha384, .sha512]
  name
    | .none   => "None"
    | .md5    => "Md5"
    | .sha1   => "Sha1"
    | .sha224 => "Sha224"
    | .sha256 => "Sha256"
    | .sha384 => "Sha384"
    | .sha512 => "Sha512"
  find_name a := by cases a <;> rfl

/-! ### Parameters -/

/-- A tag with its value. -/
inductive KeyParam where
  | purpose (value : KeyPurpose)
  | algorithm (value : Algorithm)
  | keySize (bits : UInt32)
  | digest (value : Digest)
  | padding (value : PaddingMode)
  | rsaPublicExponent (exponent : UInt64)
  | noAuthRequired
  | attestationChallenge (challenge : Bytes)
  | attestationId (id : IdTag) (value : Bytes)
  deriving DecidableEq

namespace KeyParam

/-- The tag of a parameter. -/
def tag : KeyParam → Tag
  | purpose _              => .purpose
  | algorithm _            => .algorithm
  | keySize _              => .keySize
  | digest _               => .digest
  | padding _              => .padding
  | rsaPublicExponent _    => .rsaPublicExponent
  | noAuthRequired         => .noAuthRequired
  | attestationChallenge _ => .attestationChallenge
  | attestationId id _     => id.tag

/-- The byte string that a parameter holds; only challenges and identifiers hold one. -/
def bytes? : KeyParam → Option Bytes
  | attestationChallenge challenge => some challenge
  | attestationId _ value          => some value
  | _                              => none

/-- The identifier that a parameter holds, with its bytes. -/
def attestedId? : KeyParam → Option (IdTag × Bytes)
  | attestationId id value => some (id, value)
  | _                      => none

end KeyParam

/-! ### Authorization sets -/

/-- An ordered list of parameters. -/
structure AuthorizationSet where
  params : List KeyParam
  deriving DecidableEq

namespace AuthorizationSet

/-- The set without parameters. -/
def empty : AuthorizationSet := ⟨[]⟩

/-- The set of the given parameters, in their order. -/
def ofList (params : List KeyParam) : AuthorizationSet := ⟨params⟩

/-- The parameters, in order. -/
def toList (s : AuthorizationSet) : List KeyParam := s.params

/-- Adds a parameter at the end. -/
def push (s : AuthorizationSet) (p : KeyParam) : AuthorizationSet := ⟨s.params ++ [p]⟩

/-- How many parameters the set holds. -/
def size (s : AuthorizationSet) : Nat := s.params.length

/-- Whether the set holds no parameter. -/
def isEmpty (s : AuthorizationSet) : Bool := s.params.isEmpty

/-- The first parameter of a tag. -/
def get? (s : AuthorizationSet) (t : Tag) : Option KeyParam := s.params.find? fun p => p.tag == t

/-- Whether some parameter has the tag. -/
def contains (s : AuthorizationSet) (t : Tag) : Bool := (s.get? t).isSome

/-- The bytes of the first challenge. -/
def challenge? (s : AuthorizationSet) : Option Bytes :=
  (s.get? .attestationChallenge).bind KeyParam.bytes?

/-- The identifiers in the set, in order. -/
def attestedIds (s : AuthorizationSet) : List (IdTag × Bytes) :=
  s.params.filterMap KeyParam.attestedId?

@[simp] theorem toList_push (s : AuthorizationSet) (p : KeyParam) :
    (s.push p).toList = s.toList ++ [p] := rfl

@[simp] theorem toList_ofList (params : List KeyParam) : (ofList params).toList = params := rfl

end AuthorizationSet

/-- What a keystore reports about a key it generated. -/
structure KeyCharacteristics where
  hardwareEnforced : AuthorizationSet
  softwareEnforced : AuthorizationSet
  deriving DecidableEq

end DeviceAttest
