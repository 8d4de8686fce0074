import OrderFlow.Data.Value

/-! # TOML tables

    A TOML text builds one tree of tables out of order.  A table is made in
    one of three ways, and how it was made decides who may still add to it:

      - under a header of its own: nobody else may;
      - as the parent of a header: one header of its own may still come;
      - by a dotted name: dotted names that pass through it may.

    An element of an array of tables counts as made under a header. -/

namespace OrderFlow.Toml

open Data

/-- How a table was made. -/
inductive Origin where
  /-- Under a header of its own. -/
  | header
  /-- As the parent of a header. -/
  | parent
  /-- By a dotted name. -/
  | dotted
  deriving DecidableEq

/-- What stands under a name. -/
inductive Node where
  /-- A finished value. -/
  | leaf (v : Value)
  /-- A table. -/
  | table (origin : Origin) (entries : List (String × Node))
  /-- An array of tables, the last one first. -/
  | tables (elements : List (List (String × Node)))

/-- The entries of a table. -/
abbrev Entries := List (String × Node)

namespace Entries

/-- Puts a node under a name, in the place of what stood there. -/
def put (es : Entries) (name : String) (node : Node) : Entries :=
  if es.any (·.1 == name) then es.map fun e => if e.1 == name then (name, node) else e
  else es ++ [(name, node)]

/-- Adds a value under a new name to the table that `path` leads to by
    dotted names.  `es` are the entries of a table of the given origin, and
    `dotted` says whether a dot has led there. -/
def insert (origin : Origin) (es : Entries) (dotted : Bool) (name : String) (v : Value) :
    (path : List String) → Option Entries
  | [] =>
    if (origin == .dotted) != dotted ∨ (es.lookup name).isSome then none
    else some (es ++ [(name, .leaf v)])
  | next :: path =>
    match es.lookup next with
    | none => (insert .dotted [] true name v path).map fun inner =>
        es.put next (.table .dotted inner)
    | some (.table .header _) | some (.leaf _) | some (.tables []) => none
    | some (.table origin inner) => (insert origin inner true name v path).map fun inner =>
        es.put next (.table origin inner)
    | some (.tables (last :: others)) => (insert .header last true name v path).map fun last =>
        es.put next (.tables (last :: others))

/-- Adds several values, each with the path to its table. -/
def insertAll (origin : Origin) (es : Entries) (pairs : List (List String × Value)) :
    Option Entries :=
  pairs.foldlM (fun es pair =>
    match pair.1.reverse with
    | [] => none
    | name :: path => es.insert origin (!path.isEmpty) name pair.2 path.reverse) es

/-- Changes the entries of the table that a header's path leads to. -/
def change (f : Entries → Option Entries) : (path : List String) → Entries → Option Entries
  | [], es => f es
  | next :: path, es =>
    match es.lookup next with
    | none => (change f path []).map fun inner => es.put next (.table .parent inner)
    | some (.leaf _) | some (.tables []) => none
    | some (.table origin inner) => (change f path inner).map fun inner =>
        es.put next (.table origin inner)
    | some (.tables (last :: others)) => (change f path last).map fun last =>
        es.put next (.tables (last :: others))

end Entries

mutual

/-- What a node says. -/
def Node.toValue : Node → Value
  | .leaf v => v
  | .table _ es => .record (entriesToValues es)
  | .tables elements => .list (elementsToValues elements).reverse

/-- What the entries of a table say. -/
def entriesToValues : List (String × Node) → List (String × Value)
  | [] => []
  | (name, node) :: rest => (name, node.toValue) :: entriesToValues rest

/-- What the elements of an array of tables say. -/
def elementsToValues : List (List (String × Node)) → List Value
  | [] => []
  | es :: rest => .record (entriesToValues es) :: elementsToValues rest

end

end OrderFlow.Toml
