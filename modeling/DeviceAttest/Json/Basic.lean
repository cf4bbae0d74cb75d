import DeviceAttest.Bytes

/-!
# JSON values

The values of JSON documents and their compact text.  Numbers are integers; a number written with a
fraction, an exponent or as a negative zero is a value too, but no type of this library is read from
one, so that only its presence is kept.  A string may spell a surrogate that stands alone; it then
has no text.
-/

namespace DeviceAttest

/-- The text of a JSON string, if it has one. -/
abbrev JsonText : Type := Option String

/-- A JSON value. -/
inductive Json where
  | null
  | bool (value : Bool)
  | integer (value : Int)
  | decimal
  | string (text : JsonText)
  | array (items : List Json)
  | object (members : List (JsonText × Json))

namespace Json

/-- The string of a text. -/
def ofText (text : String) : Json := string (some text)

/-- The object of some members. -/
def ofMembers (members : List (String × Json)) : Json :=
  object (members.map fun (key, value) => (some key, value))

/-! ### Writing -/

/-- A character inside a string.  Quotes, backslashes and control characters are escaped. -/
def escape (c : Char) : List Char :=
  if c = '"' then ['\\', '"']
  else if c = '\\' then ['\\', '\\']
  else if c = '\x08' then ['\\', 'b']
  else if c = '\x0c' then ['\\', 'f']
  else if c = '\n' then ['\\', 'n']
  else if c = '\r' then ['\\', 'r']
  else if c = '\t' then ['\\', 't']
  else if c < ' ' then ['\\', 'u', '0', '0'] ++ Bytes.hexOctet .lower (UInt8.ofNat c.toNat)
  else [c]

/-- The characters between the quotes of a string; a string without text shows a surrogate. -/
def writeInner : JsonText → List Char
  | some text => text.toList.flatMap escape
  | none      => ['\\', 'u', 'd', '8', '0', '0']

/-- A string in quotes. -/
def writeText (text : JsonText) : List Char := '"' :: (writeInner text ++ ['"'])

mutual

/-- The characters of a value, without blanks. -/
def writeChars : Json → List Char
  | null           => ['n', 'u', 'l', 'l']
  | bool true      => ['t', 'r', 'u', 'e']
  | bool false     => ['f', 'a', 'l', 's', 'e']
  | integer value  => (toString value).toList
  | decimal        => ['-', '0']
  | string text    => writeText text
  | array items    => '[' :: writeItems items
  | object members => '{' :: writeMembers members

/-- The items of an array after its opening bracket, and the closing one. -/
def writeItems : List Json → List Char
  | []              => [']']
  | [item]          => writeChars item ++ [']']
  | item :: items   => writeChars item ++ ',' :: writeItems items

/-- The members of an object after its opening bracket, and the closing one. -/
def writeMembers : List (JsonText × Json) → List Char
  | []                      => ['}']
  | [(key, value)]          => writeText key ++ ':' :: writeChars value ++ ['}']
  | (key, value) :: members =>
    writeText key ++ ':' :: writeChars value ++ ',' :: writeMembers members

end

/-- The compact text of a value. -/
def write (j : Json) : String := String.ofList j.writeChars

end Json

end DeviceAttest
