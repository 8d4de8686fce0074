import OrderFlow.Data.Fields
import OrderFlow.Toml.Scalar
import OrderFlow.Toml.Table

/-! # TOML, read

    A document is a sequence of lines: pairs of a name and a value, headers,
    comments and empty lines.  The pairs before the first header belong to
    the outermost table, the others to the table of the header before them.

    Lists and inline tables are nested at most `nestingLimit` deep, and a
    dotted name has at most as many parts. -/

namespace OrderFlow.Toml

open Data Text Scan

/-- How deep values may be nested, and how many parts a name may have. -/
def nestingLimit : Nat := 79

/-! ## Names and values -/

/-- May `c` stand in a name without quotes? -/
def isBareChar (c : Char) : Bool :=
  c.isAlphanum || c == '_' || c == '-'

/-- One part of a name. -/
def namePart : Scan String := do
  gap
  let part ← basicString <|> literalString <|> some1 isBareChar
  gap
  pure (String.ofList part)

/-- A name, with dots between its parts. -/
def dottedName : Scan (List String) := do
  let parts ← separated1 namePart (char '.')
  if parts.length ≤ nestingLimit then pure parts else failure

/-- A pair of a name and a value. -/
def pair (value : Scan Value) : Scan (List String × Value) := do
  let name ← dottedName
  char '='
  gap
  let v ← value
  pure (name, v)

/-- A list; a comma may follow its last item. -/
def list (value : Scan Value) : Scan Value := do
  char '['
  let items ← maybe do
    let items ← separated1 (do spacing; let v ← value; spacing; pure v) (char ',')
    let _ ← maybe (char ',')
    pure items
  spacing
  char ']'
  pure (.list (items.getD []))

/-- A table on one line; no comma follows its last pair. -/
def inlineTable (value : Scan Value) : Scan Value := do
  char '\x7b'
  let pairs ← maybe (separated1 (do let p ← pair value; gap; pure p) (char ','))
  gap
  char '\x7d'
  match Entries.insertAll .header [] (pairs.getD []) with
  | some es => pure (Node.table .header es).toValue
  | none => failure

/-- A value with at most `room` containers nested in it. -/
def value : (room : Nat) → Scan Value
  | 0 => scalar
  | room + 1 => list (value room) <|> inlineTable (value room) <|> scalar

/-! ## Documents -/

/-- A line of a document. -/
inductive Line where
  /-- Nothing, or a comment. -/
  | blank
  /-- A pair. -/
  | pair (name : List String) (v : Value)
  /-- A header, and whether it adds an element to an array of tables. -/
  | header (element : Bool) (path : List String)

/-- A line, with its end. -/
def line : Scan Line := do
  gap
  (do newline; pure .blank) <|>
    (do comment; lineEnd; pure .blank) <|>
    (do
      chars ['[', '[']
      let path ← dottedName
      chars [']', ']']
      trailing
      pure (.header true path)) <|>
    (do
      char '['
      let path ← dottedName
      char ']'
      trailing
      pure (.header false path)) <|>
    (do
      let (name, v) ← pair (value nestingLimit)
      trailing
      pure (.pair name v))

/-- All lines of a text; a byte order mark may stand before them. -/
def lines : Scan (List Line) := do
  let _ ← maybe (char '\ufeff')
  let found ← repeated line
  gap
  atEnd
  pure found

/-- A header with the pairs under it. -/
structure Section where
  /-- Does it add an element to an array of tables? -/
  element : Bool
  /-- The path of its table. -/
  path : List String
  /-- Its pairs, in order. -/
  pairs : List (List String × Value)

/-- The pairs before the first header, and the sections after it. -/
def sections : List Line → List (List String × Value) × List Section
  | [] => ([], [])
  | .blank :: rest => sections rest
  | .pair name v :: rest =>
    let (pairs, found) := sections rest
    ((name, v) :: pairs, found)
  | .header element path :: rest =>
    let (pairs, found) := sections rest
    ([], ⟨element, path, pairs⟩ :: found)

/-- Adds a section to the tree. -/
def Section.add (s : Section) (root : Entries) : Option Entries :=
  match s.path.reverse with
  | [] => none
  | name :: path =>
    root.change (fun es =>
      match s.element, es.lookup name with
      | true, none => (Entries.insertAll .header [] s.pairs).map fun e =>
          es.put name (.tables [e])
      | true, some (.tables elements) => (Entries.insertAll .header [] s.pairs).map fun e =>
          es.put name (.tables (e :: elements))
      | false, none => (Entries.insertAll .header [] s.pairs).map fun e =>
          es.put name (.table .header e)
      | false, some (.table .parent inner) =>
        (Entries.insertAll .header inner s.pairs).map fun e => es.put name (.table .header e)
      | _, _ => none) path.reverse

/-- The tree that the lines of a document build. -/
def build? (ls : List Line) : Option Entries := do
  let (pairs, found) := sections ls
  let root ← Entries.insertAll .header [] pairs
  found.foldlM (fun root s => s.add root) root

/-- Reads a text. -/
def parse? (s : String) : Option Value := do
  let (ls, _) ← lines.run s.toList
  let root ← build? ls
  some (.record (entriesToValues root))

/-- TOML as a format for records: a choice without content is an empty list
    or table, and what stands in a sequence after its record is passed over. -/
def format : Format where
  isUnit v := match v with
    | .list [] | .record [] => true
    | _ => false
  runsOn := true

end OrderFlow.Toml
