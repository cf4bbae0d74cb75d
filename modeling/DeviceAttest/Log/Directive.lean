import DeviceAttest.Log.Reader
import DeviceAttest.Text.Alphanumeric
import DeviceAttest.Text.Blank

/-!
# Log directives

A directive says up to which level events pass: for all targets or those that begin with a given
text, and perhaps only for events that have a given field.  It is written `level`, `target`,
`target=level`, and with a scope in brackets between the target and the level: the name of a span, a
field in braces, or both.  A directive about spans, or about the value of a field, has no say over
events.

A directive is read mark by mark.  The marks are sought in the text without the blanks around it,
but the parts between them are cut out of the whole text by the places of the marks, counted in
octets.  So a blank at the end belongs to the last part, and a blank at the front shifts all parts;
a cut may even fall inside a character, which breaks the reading off.

Which texts can be asked for as the value of a field is not part of this: the readers take it from
`isValue`.
-/

namespace DeviceAttest.Log

/-- What a directive asks of the fields of an event or span. -/
structure FieldMatch where
  name : String
  /-- The pattern that the value must match, if there is one. -/
  value : Option String
  deriving DecidableEq

/-- One directive: what it is about, and the level up to which events pass, if any do. -/
structure Directive where
  target : Option String
  span : Option String
  field : Option FieldMatch
  level : Option Level
  deriving DecidableEq

namespace Directive

/-! ### Levels -/

/-- The level of a rank; rank zero lets no event through. -/
def levelOfRank? (n : Nat) : Option (Option Level) :=
  match n with
  | 0 => some none
  | 1 => some (some .error)
  | 2 => some (some .warn)
  | 3 => some (some .info)
  | 4 => some (some .debug)
  | 5 => some (some .trace)
  | _ => none

/-- The number that decimal digits spell, which a plus may precede. -/
def number? (text : List Char) : Option Nat :=
  let digits := if text.head? = some '+' then text.tail else text
  if digits ≠ [] ∧ digits.all Char.isDigit then
    some (digits.foldl (fun n c => n * 10 + (c.toNat - '0'.toNat)) 0)
  else none

/-- The level that a word names, in any case, or a number. -/
def level? (text : List Char) : Option (Option Level) :=
  match number? text with
  | some n => levelOfRank? n
  | none   =>
    let word := String.ofList (text.map Char.toUpper)
    if word = "OFF" then some none else (Named.ofName? word : Option Level).map some

/-! ### Fields -/

/-- Reads a field with or without a value; what follows a second equals sign does not count. -/
def fieldMatch? (isValue : List Char → Bool) (s : List Char) : Option FieldMatch :=
  let (name, rest) := s.span (· ≠ '=')
  let value := rest.tail.takeWhile (· ≠ '=')
  if s = [] then none
  else if rest = [] then some ⟨String.ofList name, none⟩
  else if isValue value then some ⟨String.ofList name, some (String.ofList value)⟩
  else none

/-! ### Parts of a text -/

/-- Drops a number of octets, which must be those of whole characters. -/
def dropOctets? : Nat → List Char → Option (List Char)
  | 0, s          => some s
  | n + 1, c :: s => if c.utf8Size ≤ n + 1 then dropOctets? (n + 1 - c.utf8Size) s else none
  | _ + 1, []     => none

/-- Takes a number of octets, which must be those of whole characters. -/
def takeOctets? : Nat → List Char → Option (List Char)
  | 0, _          => some []
  | n + 1, c :: s =>
    if c.utf8Size ≤ n + 1 then (takeOctets? (n + 1 - c.utf8Size) s).map (c :: ·) else none
  | _ + 1, []     => none

/-- The part of a text from one octet on. -/
def cutFrom (text : List Char) (start : Nat) : Except FilterFault (List Char) :=
  match dropOctets? start text with
  | some part => .ok part
  | none      => .error .brokenOff

/-- The part of a text between two octets. -/
def cut (text : List Char) (start stop : Nat) : Except FilterFault (List Char) := do
  match takeOctets? (stop - start) (← cutFrom text start) with
  | some part => .ok part
  | none      => .error .brokenOff

/-! ### Reading -/

/-- Where in a directive the reading stands; the number is the octet at which a part began. -/
inductive Stage where
  | start
  | name (first : Nat)
  | span (first : Nat)
  | field (first : Nat)
  | fieldEnd
  | scopeEnd
  | level (first : Nat)

/-- A directive that has been read in part. -/
structure Draft where
  directive : Directive
  stage : Stage

/-- A value of a reading, or else the text is malformed. -/
def orMalformed {α : Type} : Option α → Except FilterFault α
  | some a => .ok a
  | none   => .error .malformed

/-- Whether a directive may begin with a character, other than a bracket. -/
def isOpening (c : Char) : Bool := Text.isAlphanumeric c || c ∈ ['-', ':', '_']

variable (isValue : List Char → Bool)

/-- Takes a character whose first octet stands at a place of the text. -/
def Draft.step (text : List Char) (draft : Draft) (place : Nat) (c : Char) :
    Except FilterFault Draft := do
  let d := draft.directive
  match draft.stage, c with
  | .start, '['          => .ok ⟨d, .span (place + 1)⟩
  | .start, c            => if isOpening c then .ok ⟨d, .name place⟩ else .error .malformed
  | .name first, '='     =>
    let target ← cut text first place
    .ok ⟨{ d with target := some (String.ofList target) }, .level (place + 1)⟩
  | .name first, '['     =>
    let target ← cut text first place
    .ok ⟨{ d with target := some (String.ofList target) }, .span (place + 1)⟩
  | .span first, ']'     =>
    let span ← cut text first place
    .ok ⟨{ d with span := some (String.ofList span) }, .scopeEnd⟩
  | .span first, '\x7b'  =>
    let span ← cut text first place
    let span := if span = [] then none else some (String.ofList span)
    .ok ⟨{ d with span }, .field (place + 1)⟩
  | .field first, '\x7d' =>
    let field ← orMalformed (fieldMatch? isValue (← cut text first place))
    .ok ⟨{ d with field := some field }, .fieldEnd⟩
  | .fieldEnd, ']'       => .ok ⟨d, .scopeEnd⟩
  | .scopeEnd, '='       => .ok ⟨d, .level (place + 1)⟩
  | .fieldEnd, _         => .error .malformed
  | .scopeEnd, _         => .error .malformed
  | stage, _             => .ok ⟨d, stage⟩

/-- Takes the characters that are left, the first of which stands at a place of the text. -/
def Draft.steps (text : List Char) (draft : Draft) (place : Nat) :
    List Char → Except FilterFault Draft
  | []     => .ok draft
  | c :: s => do (← draft.step isValue text place c).steps text (place + c.utf8Size) s

/-- The directive at the end of its text.  A name alone is a level if it can be, else a target, and
where no level is stated all events pass. -/
def Draft.finish (text : List Char) (draft : Draft) : Except FilterFault Directive := do
  let d := draft.directive
  match draft.stage with
  | .name first  =>
    let name ← cutFrom text first
    match level? name with
    | some level => .ok { d with level }
    | none       => .ok { d with target := some (String.ofList name) }
  | .scopeEnd    => .ok d
  | .level first =>
    let word ← cutFrom text first
    if word = [] then .ok d else .ok { d with level := ← orMalformed (level? word) }
  | _            => .error .malformed

/-- A directive about everything, of which nothing has been read. -/
def blank : Draft := ⟨⟨none, none, none, some .trace⟩, .start⟩

/-- Reads a directive. -/
def parse (text : List Char) : Except FilterFault Directive := do
  (← blank.steps isValue text 0 (Text.trim text)).finish text

/-! ### Deciding about events -/

/-- Whether a directive has a say over events. -/
def concernsEvents (d : Directive) : Bool := d.span.isNone && d.field.all fun f => f.value.isNone

/-- Whether a directive is about an event. -/
def fits (d : Directive) (e : Event) : Bool :=
  d.concernsEvents
    && d.target.all (fun start => start.toList.isPrefixOf e.target.toList)
    && d.field.all (fun f => f.name ∈ e.fieldNames)

/-- How closely a directive describes the targets it is about. -/
def weight (d : Directive) : Nat :=
  match d.target with
  | none       => 0
  | some start => start.length + 1

/-- Whether another directive counts over this one where both fit.  A longer target counts over a
shorter one, then a field over none, then the later name of a field, then the later directive. -/
def yieldsTo (d other : Directive) : Bool :=
  d.weight < other.weight
    || d.weight = other.weight &&
      match d.field, other.field with
      | none, _        => true
      | some _, none   => false
      | some f, some g => f.name ≤ g.name

/-- Whether a directive lets events of a level through. -/
def passes (d : Directive) (level : Level) : Bool :=
  match d.level with
  | none       => false
  | some limit => level.rank ≤ limit.rank

/-- The one of some directives that decides about an event. -/
def decisive? (directives : List Directive) (e : Event) : Option Directive :=
  (directives.filter (·.fits e)).foldl (fun best d =>
    match best with
    | none   => some d
    | some b => if b.yieldsTo d then some d else some b) none

/-- The directive that lets errors through and nothing else. -/
def errorsOnly : Directive := ⟨none, none, none, some .error⟩

/-- Whether directives let an event through; without any, errors alone pass. -/
def admits (directives : List Directive) (e : Event) : Bool :=
  (decisive? (if directives = [] then [errorsOnly] else directives) e).any (·.passes e.level)

end Directive

/-- The reader of such directives. -/
def FilterReader.directives (isValue : List Char → Bool) : FilterReader :=
  .ofDirectives (Directive.parse isValue) Directive.admits

end DeviceAttest.Log
