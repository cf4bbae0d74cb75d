import DeviceAttest.Toml.Value

/-!
# TOML documents

A document is a sequence of statements, one a line: a key with its value, the header of a table, or
the header of one more table of an array.  `Document.read?` reads the statements and then builds the
tables they describe.
-/

namespace DeviceAttest.Toml

/-- A statement of a document. -/
inductive Statement where
  | pair (key : DottedKey) (value : Node)
  | table (key : DottedKey)
  | tables (key : DottedKey)
  | blank

/-! ### Reading statements -/

/-- Reads one statement and the rest of its line. -/
def readStatement (s : List Char) : Option (Statement × List Char) := do
  match dropBlanks s with
  | '[' :: '[' :: s =>
    let (key, s) ← readKey s
    let s ← dropChar ']' s
    let s ← dropChar ']' s
    some (.tables key, ← dropLineRest? s)
  | '[' :: s        =>
    let (key, s) ← readKey s
    let s ← dropChar ']' s
    some (.table key, ← dropLineRest? s)
  | s               =>
    match dropLineRest? s with
    | some s => some (.blank, s)
    | none   =>
      let ((key, value), s) ← readPair (readValue maxDepth) s
      some (.pair key value, ← dropLineRest? s)

/-- Reads the statements of a text. -/
def readStatements (s : List Char) : Option (List Statement) :=
  if s = [] then some []
  else match readStatement s with
    | none                => none
    | some (first, rest) =>
      if rest.length < s.length then (readStatements rest).map (first :: ·) else none
termination_by s.length

/-! ### Building tables -/

/-- The tables so far, and the path of the one that keys are put into. -/
structure Builder where
  root : Entries
  current : List String

namespace Builder

/-- No table but the outermost one. -/
def start : Builder := ⟨[], []⟩

/-- The tables after one more statement. -/
def apply (b : Builder) : Statement → Option Builder
  | .pair key value => do
    let root ← Entries.modify (Entries.assign key.name value key.path) b.current b.root
    some { b with root }
  | .table key      => do
    let root ← Entries.modify (Entries.beginTable key.name) key.path b.root
    some ⟨root, key.path ++ [key.name]⟩
  | .tables key     => do
    let root ← Entries.modify (Entries.beginTables key.name) key.path b.root
    some ⟨root, key.path ++ [key.name]⟩
  | .blank          => some b

end Builder

/-- The text after a byte order mark, if there is one. -/
def dropByteOrderMark (s : List Char) : List Char :=
  match s with
  | '\ufeff' :: s => s
  | s             => s

/-- The entries of the outermost table of a document. -/
def readDocument (text : String) : Option Entries := do
  let statements ← readStatements (dropByteOrderMark text.toList)
  let built ← statements.foldlM Builder.apply Builder.start
  some built.root

end DeviceAttest.Toml
