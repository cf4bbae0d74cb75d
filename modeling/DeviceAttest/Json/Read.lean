import DeviceAttest.Json.Token

/-!
# Reading JSON values

A machine takes the tokens of a text one after the other.  It keeps the arrays and objects that are
still open, the innermost first, and knows what may come next.  A text is a value if the machine
ends with exactly one.
-/

namespace DeviceAttest.Json

/-- An array or object that is still open, with its contents so far in reverse order. -/
inductive Frame where
  | array (items : List Json)
  | object (members : List (JsonText × Json))
  /-- An object in which the value of a named member is due. -/
  | member (members : List (JsonText × Json)) (name : JsonText)

/-- What may come next. -/
inductive Expecting where
  /-- A value; directly after an opening bracket, the closing one may come instead. -/
  | value (closable : Bool)
  /-- The name of a member; directly after an opening bracket, the closing one may come instead. -/
  | key (closable : Bool)
  /-- The colon after a name. -/
  | colon (name : JsonText)
  /-- A comma or a closing bracket. -/
  | separator
  /-- Nothing: the outermost value is complete. -/
  | nothing (result : Json)

/-- The state of the machine. -/
structure Reader where
  opened : List Frame
  expecting : Expecting

namespace Reader

/-- The machine before the first token. -/
def start : Reader := ⟨[], .value false⟩

/-- The machine after a complete value where one was due. -/
def complete (opened : List Frame) (j : Json) : Option Reader :=
  match opened with
  | []                             => some ⟨[], .nothing j⟩
  | .array items :: opened         => some ⟨.array (j :: items) :: opened, .separator⟩
  | .member members name :: opened =>
    some ⟨.object ((name, j) :: members) :: opened, .separator⟩
  | .object _ :: _                 => none

/-- The machine after the innermost array is closed. -/
def closeArray (opened : List Frame) : Option Reader :=
  match opened with
  | .array items :: opened => complete opened (.array items.reverse)
  | _                      => none

/-- The machine after the innermost object is closed. -/
def closeObject (opened : List Frame) : Option Reader :=
  match opened with
  | .object members :: opened => complete opened (.object members.reverse)
  | _                         => none

/-- The machine after a comma in the innermost array or object. -/
def separate (opened : List Frame) : Option Reader :=
  match opened with
  | .array _ :: _  => some ⟨opened, .value false⟩
  | .object _ :: _ => some ⟨opened, .key false⟩
  | _              => none

/-- The machine after the colon that follows a name. -/
def assign (opened : List Frame) (name : JsonText) : Option Reader :=
  match opened with
  | .object members :: opened => some ⟨.member members name :: opened, .value false⟩
  | _                         => none

/-- The machine after a token where a value is due. -/
def takeValue (opened : List Frame) (closable : Bool) : Token → Option Reader
  | .openArray     => some ⟨.array [] :: opened, .value true⟩
  | .openObject    => some ⟨.object [] :: opened, .key true⟩
  | .closeArray    => if closable then closeArray opened else none
  | .null          => complete opened .null
  | .bool value    => complete opened (.bool value)
  | .integer value => complete opened (.integer value)
  | .decimal       => complete opened .decimal
  | .string text   => complete opened (.string text)
  | _              => none

/-- The machine after one more token. -/
def step (r : Reader) (t : Token) : Option Reader :=
  match r.expecting, t with
  | .value closable, t      => takeValue r.opened closable t
  | .key _, .string name    => some ⟨r.opened, .colon name⟩
  | .key true, .closeObject => closeObject r.opened
  | .colon name, .colon     => assign r.opened name
  | .separator, .comma      => separate r.opened
  | .separator, .closeArray => closeArray r.opened
  | .separator, .closeObject => closeObject r.opened
  | _, _                    => none

/-- The value that the machine ended with. -/
def result? (r : Reader) : Option Json :=
  match r.expecting with
  | .nothing j => some j
  | _          => none

end Reader

/-- The value that some tokens make up. -/
def ofTokens? (tokens : List Token) : Option Json := do
  (← tokens.foldlM Reader.step Reader.start).result?

/-- The value that a text spells. -/
def read? (text : String) : Option Json := do
  ofTokens? (← tokens? text.toList)

end DeviceAttest.Json
