import DeviceAttest.Bytes

/-!
# Texts and names in TOML

The four kinds of strings, names without quotes, and the blanks, comments and line ends between
them.  Every reader takes the characters of one item off the front of a text.
-/

namespace DeviceAttest.Toml

/-! ### Blanks, comments, line ends -/

/-- Whether a character is a blank within a line. -/
def isBlank (c : Char) : Bool := c = ' ' || c = '\t'

/-- Whether a character may stand in a comment: no control character but the tab. -/
def isPrintable (c : Char) : Bool := c = '\t' || ' ' ≤ c && c ≠ '\x7f'

/-- Drops blanks. -/
def dropBlanks (s : List Char) : List Char := s.dropWhile isBlank

/-- Drops one line end. -/
def dropLineEnd? : List Char → Option (List Char)
  | '\n' :: s         => some s
  | '\r' :: '\n' :: s => some s
  | _                 => none

/-- Drops a comment, if there is one. -/
def dropComment : List Char → List Char
  | '#' :: s => s.dropWhile isPrintable
  | s        => s

/-- Drops blanks and line ends. -/
def dropLines (s : List Char) : List Char :=
  match s with
  | '\r' :: '\n' :: s => dropLines s
  | c :: s            => if isBlank c || c = '\n' then dropLines s else c :: s
  | []                => []

/-- Drops blanks, line ends, and comments that end in a line end; `inComment` says that a comment
has begun. -/
def dropFiller (inComment : Bool) (s : List Char) : List Char :=
  match s with
  | '\r' :: '\n' :: s => dropFiller false s
  | '\n' :: s         => dropFiller false s
  | c :: s            =>
    if inComment then if isPrintable c then dropFiller true s else c :: s
    else if isBlank c then dropFiller false s
    else if c = '#' then dropFiller true s
    else c :: s
  | []                => []

/-- Drops what may follow an item at the end of its line, and the line end. -/
def dropLineRest? (s : List Char) : Option (List Char) :=
  match dropComment (dropBlanks s) with
  | [] => some []
  | s  => dropLineEnd? s

/-! ### Escapes -/

/-- The character of a number that is no surrogate. -/
def charOfNat? (n : Nat) : Option Char :=
  if h : n.isValidChar then some (Char.ofNatAux n h) else none

/-- The number that hexadecimal digits spell. -/
def ofHexDigits? (digits : List Char) : Option Nat :=
  digits.foldlM (fun n c => (Bytes.hexValue? c).map (n * 16 + ·)) 0

/-- The character that a number of hexadecimal digits at the front of a text spells. -/
def hexChar? (count : Nat) (s : List Char) : Option Char := do
  if s.length < count then none
  else charOfNat? (← ofHexDigits? (s.take count))

/-- The character that a letter stands for after a backslash. -/
def unescape? (c : Char) : Option Char :=
  match c with
  | '"' | '\\' => some c
  | 'b'        => some '\x08'
  | 'f'        => some '\x0c'
  | 'n'        => some '\n'
  | 'r'        => some '\r'
  | 't'        => some '\t'
  | _          => none

/-- Reads what follows a backslash, other than a line end. -/
def readEscape (s : List Char) : Option (Char × List Char) :=
  match s with
  | 'u' :: s => (hexChar? 4 s).map (·, s.drop 4)
  | 'U' :: s => (hexChar? 8 s).map (·, s.drop 8)
  | c :: s   => (unescape? c).map (·, s)
  | []       => none

/-! ### Strings on one line -/

/-- Reads a string in quotes after the opening one; `room` bounds the number of characters. -/
def readQuoted (room : Nat) (s : List Char) : Option (List Char × List Char) :=
  match room, s with
  | _, '"' :: s         => some ([], s)
  | room + 1, '\\' :: s => do
    let (c, s) ← readEscape s
    let (cs, s) ← readQuoted room s
    some (c :: cs, s)
  | room + 1, c :: s    =>
    if isPrintable c then (readQuoted room s).map fun (cs, s) => (c :: cs, s) else none
  | _, _                => none

/-- Reads a string in apostrophes after the opening one. -/
def readLiteral (s : List Char) : Option (List Char × List Char) :=
  match s.dropWhile fun c => isPrintable c && c ≠ '\x27' with
  | '\x27' :: rest => some (s.take (s.length - rest.length - 1), rest)
  | _              => none

/-! ### Strings over several lines -/

/-- Drops a line end directly after an opening delimiter. -/
def dropFirstLineEnd (s : List Char) : List Char := (dropLineEnd? s).getD s

/-- How many delimiter characters the front of a text has. -/
def countFront (mark : Char) (s : List Char) : Nat := (s.takeWhile (· = mark)).length

/-- Reads what stands before and at a run of `mark`: a run of three or more ends the string, and up
to two of its characters before the last three belong to the text. -/
def closeRun (mark : Char) (s : List Char) : Option (List Char × List Char) :=
  let extra := min (countFront mark s - 3) 2
  if countFront mark s < 3 then none
  else some (List.replicate extra mark, s.drop (extra + 3))

/-- Reads a string over several lines; in quotes it has escapes, in apostrophes it has none. -/
def readLong (mark : Char) (room : Nat) (s : List Char) : Option (List Char × List Char) :=
  match room, s with
  | room + 1, '\r' :: '\n' :: s => (readLong mark room s).map fun (cs, s) => ('\n' :: cs, s)
  | room + 1, c :: s            =>
    if c = mark then
      match closeRun mark (c :: s) with
      | some closed => some closed
      | none        => (readLong mark room s).map fun (cs, s) => (c :: cs, s)
    else if c = '\\' ∧ mark = '"' then
      match dropLineEnd? (dropBlanks s) with
      | some s => readLong mark room (dropLines s)
      | none   => do
        let (e, s) ← readEscape s
        let (cs, s) ← readLong mark room s
        some (e :: cs, s)
    else if isPrintable c || c = '\n' then
      (readLong mark room s).map fun (cs, s) => (c :: cs, s)
    else none
  | _, _                        => none

/-! ### Strings and names -/

/-- Reads a string on one line. -/
def readShortString (s : List Char) : Option (String × List Char) :=
  match s with
  | '"' :: s    => (readQuoted s.length s).map fun (cs, s) => (String.ofList cs, s)
  | '\x27' :: s => (readLiteral s).map fun (cs, s) => (String.ofList cs, s)
  | _           => none

/-- Reads a string of any kind. -/
def readString (s : List Char) : Option (String × List Char) :=
  let long (mark : Char) (s : List Char) : Option (String × List Char) :=
    (readLong mark s.length (dropFirstLineEnd s)).map fun (cs, s) => (String.ofList cs, s)
  match s with
  | '"' :: '"' :: '"' :: s          => long '"' s
  | '\x27' :: '\x27' :: '\x27' :: s => long '\x27' s
  | s                               => readShortString s

/-- Whether a character may stand in a name without quotes. -/
def isBare (c : Char) : Bool := c.isAlphanum || c = '-' || c = '_'

/-- Reads one name. -/
def readName (s : List Char) : Option (String × List Char) :=
  match s.head? with
  | some '"' | some '\x27' => readShortString s
  | _                      =>
    let name := s.takeWhile isBare
    if name = [] then none else some (String.ofList name, s.drop name.length)

/-- Reads names with points between them; `room` bounds their number. -/
def readNames : Nat → List Char → Option (List String × List Char)
  | 0, _        => none
  | room + 1, s => do
    let (name, s) ← readName (dropBlanks s)
    match dropBlanks s with
    | '.' :: s =>
      let (names, s) ← readNames room s
      some (name :: names, s)
    | s        => some ([name], s)

/-- The most names that a dotted key may have. -/
def maxNames : Nat := 79

/-- A dotted key: the names of the tables it leads through, and the name in the last one. -/
structure DottedKey where
  path : List String
  name : String
  deriving DecidableEq

/-- Reads a dotted key. -/
def readKey (s : List Char) : Option (DottedKey × List Char) := do
  let (names, s) ← readNames maxNames s
  let name ← names.getLast?
  some (⟨names.dropLast, name⟩, s)

end DeviceAttest.Toml
