import DeviceAttest.Toml.Number
import DeviceAttest.Toml.Text

/-!
# TOML values and tables

The tree that a document describes.  Tables remember how they came to be, since that decides what
may be added to them: a table with a header of its own is closed to dotted keys, and a table that
only dotted keys made is closed to headers.
-/

namespace DeviceAttest.Toml

/-- How a table came to be. -/
inductive Origin where
  /-- By a header of its own. -/
  | header
  /-- As a part of the header of another table. -/
  | implied
  /-- As a part of a dotted key. -/
  | dotted
  deriving DecidableEq

/-- A value or a table. -/
inductive Node where
  | string (text : String)
  | integer (value : Int)
  | float
  | boolean (value : Bool)
  | moment
  | array (items : List Node)
  | inline (entries : List (String × Node))
  | table (origin : Origin) (entries : List (String × Node))
  /-- An array of tables, which grows at its last table. -/
  | tables (last : List (String × Node)) (earlier : List (List (String × Node)))

/-- The entries of a table, in the order in which they came. -/
abbrev Entries : Type := List (String × Node)

namespace Entries

/-- The entries with a new node under a name that is in use. -/
def replace (name : String) (node : Node) (es : Entries) : Entries :=
  es.map fun entry => if entry.1 = name then (name, node) else entry

/-- Puts a value under a name at the end of a path of dotted names.  Tables on the way are made as
needed; the last of them must have been made by dotted names. -/
def assign (name : String) (value : Node) : List String → Entries → Option Entries
  | [], es         =>
    match es.lookup name with
    | none   => some (es ++ [(name, value)])
    | some _ => none
  | first :: path, es =>
    match es.lookup first with
    | none                       =>
      (assign name value path []).map fun inner => es ++ [(first, .table .dotted inner)]
    | some (.table origin inner) =>
      -- an implied table may be passed through but not added to
      if origin = .header ∨ path = [] ∧ origin ≠ .dotted then none
      else
        (assign name value path inner).map fun inner => es.replace first (.table origin inner)
    | some (.tables last earlier) =>
      if path = [] then none
      else
        (assign name value path last).map fun last => es.replace first (.tables last earlier)
    | some _                     => none

/-- Changes the table at the end of a path of names; of an array of tables, the last one. -/
def modify (change : Entries → Option Entries) : List String → Entries → Option Entries
  | [], es         => change es
  | first :: path, es =>
    match es.lookup first with
    | none                       =>
      (modify change path []).map fun inner => es ++ [(first, .table .implied inner)]
    | some (.table origin inner) =>
      (modify change path inner).map fun inner => es.replace first (.table origin inner)
    | some (.tables last earlier) =>
      (modify change path last).map fun last => es.replace first (.tables last earlier)
    | some _                     => none

/-- Begins a table of a name; only one that was implied so far may exist. -/
def beginTable (name : String) (es : Entries) : Option Entries :=
  match es.lookup name with
  | none                         => some (es ++ [(name, .table .header [])])
  | some (.table .implied inner) => some (es.replace name (.table .header inner))
  | some _                       => none

/-- Begins one more table of an array of tables. -/
def beginTables (name : String) (es : Entries) : Option Entries :=
  match es.lookup name with
  | none                        => some (es ++ [(name, .tables [] [])])
  | some (.tables last earlier) => some (es.replace name (.tables [] (last :: earlier)))
  | some _                      => none

end Entries

/-! ### Reading values -/

/-- How deep arrays and inline tables may be nested. -/
def maxDepth : Nat := 79

/-- Reads a value of one line at most that is no string. -/
def readScalar (s : List Char) : Option (Node × List Char) :=
  match s with
  | 't' :: 'r' :: 'u' :: 'e' :: s        => some (.boolean true, s)
  | 'f' :: 'a' :: 'l' :: 's' :: 'e' :: s => some (.boolean false, s)
  | s                                    =>
    match dropMoment s with
    | some s => some (.moment, s)
    | none   =>
      match dropSpecialFloat s with
      | some s => some (.float, s)
      | none   =>
        match dropFloat s with
        | some s => some (.float, s)
        | none   => (readInteger s).map fun (n, s) => (.integer n, s)

/-- Reads items with commas between them, up to where no further one follows. -/
def readItems {α : Type} (item : List Char → Option (α × List Char)) (s : List Char) :
    List α × List Char :=
  match item s with
  | none        => ([], s)
  | some (a, r) =>
    match r with
    | ',' :: r' =>
      if r'.length < s.length then
        match readItems item r' with
        | ([], _)  => ([a], r)
        | (as, r') => (a :: as, r')
      else ([a], r)
    | _         => ([a], r)
termination_by s.length

/-- Reads a key, an equals sign and a value. -/
def readPair (value : List Char → Option (Node × List Char)) (s : List Char) :
    Option ((DottedKey × Node) × List Char) := do
  let (key, s) ← readKey s
  let s ← dropChar '=' s
  let (node, s) ← value (dropBlanks s)
  some ((key, node), dropBlanks s)

/-- The entries of an inline table. -/
def Entries.ofPairs (pairs : List (DottedKey × Node)) : Option Entries :=
  pairs.foldlM (fun es (key, node) => Entries.assign key.name node key.path es) []

/-- Reads the rest of an array, whose last item a comma may follow. -/
def readArray (value : List Char → Option (Node × List Char)) (s : List Char) :
    Option (Node × List Char) :=
  let item (s : List Char) : Option (Node × List Char) :=
    (value (dropFiller false s)).map fun (node, s) => (node, dropFiller false s)
  let (items, s) := readItems item s
  let s :=
    match s with
    | ',' :: s' => if items = [] then s else s'
    | s         => s
  (dropChar ']' (dropFiller false s)).map (.array items, ·)

/-- Reads the rest of an inline table, which has neither line ends nor a last comma. -/
def readInline (value : List Char → Option (Node × List Char)) (s : List Char) :
    Option (Node × List Char) := do
  let (pairs, s) := readItems (readPair value) s
  let s ← dropChar '}' (dropBlanks s)
  let entries ← Entries.ofPairs pairs
  some (.inline entries, s)

/-- Reads a value in which arrays and inline tables are nested up to a depth. -/
def readValue (depth : Nat) (s : List Char) : Option (Node × List Char) :=
  match depth, s with
  | depth + 1, '[' :: s     => readArray (readValue depth) s
  | depth + 1, '\x7b' :: s  => readInline (readValue depth) s
  | _, s                    =>
    match s.head? with
    | some '"' | some '\x27' => (readString s).map fun (text, s) => (.string text, s)
    | _                      => readScalar s

end DeviceAttest.Toml
