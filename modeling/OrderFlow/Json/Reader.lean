import OrderFlow.Data.Fields
import OrderFlow.Json.Scanner

/-! # JSON, read

    A machine that takes the tokens one by one.  Its stack holds the lists
    and records that are open, innermost first; `expect` says what may come
    next.  A text is one value with nothing around it but blanks.

    Containers nested deeper than `nestingLimit` denote nothing. -/

namespace OrderFlow.Json

open Data

/-- How deep containers may be nested. -/
def nestingLimit : Nat := 127

/-- A list or record that is not closed yet. -/
inductive Frame where
  /-- A list and its items so far, last first. -/
  | list (items : List Value)
  /-- A record, its entries so far, last first, and the name of the entry
      that is being read.  A name may fail to be a text. -/
  | record (entries : List (Option String × Value)) (name : Option String)

/-- What may come next. -/
inductive Expect where
  /-- A value. -/
  | value
  /-- A value, or the end of the list that has just begun. -/
  | valueOrEnd
  /-- A name, or the end of the record that has just begun. -/
  | nameOrEnd
  /-- A name. -/
  | name
  /-- A colon. -/
  | colon
  /-- A comma or the end of the innermost container; at the outermost level, nothing. -/
  | separator (whole : Option Value)

/-- The machine. -/
structure Machine where
  /-- The open containers, innermost first. -/
  stack : List Frame
  /-- What may come next. -/
  expect : Expect

/-- Puts a finished value into the innermost open container. -/
def place (stack : List Frame) (v : Value) : Machine :=
  match stack with
  | [] => ⟨[], .separator (some v)⟩
  | .list items :: rest => ⟨.list (v :: items) :: rest, .separator none⟩
  | .record entries name :: rest =>
    ⟨.record ((name, v) :: entries) none :: rest, .separator none⟩

/-- The value of a container that closes while `depth` containers are open,
    itself among them. -/
def Frame.close (depth : Nat) : Frame → Value
  | .list items => if nestingLimit < depth then .unreadable else .list items.reverse
  | .record entries _ =>
    match entries.reverse.mapM fun e => e.1.map fun name => (name, e.2) with
    | some entries => if nestingLimit < depth then .unreadable else .record entries
    | none => .unreadable

/-- Closes the innermost container if it is of the asked-for kind. -/
def closeIf (isRecord : Bool) : List Frame → Option Machine
  | [] => none
  | frame :: rest =>
    match frame, isRecord with
    | .list _, false | .record _ _, true =>
      some (place rest (frame.close (rest.length + 1)))
    | _, _ => none

/-- Begins a value. -/
def openValue (stack : List Frame) : Token → Option Machine
  | .openRecord => some ⟨.record [] none :: stack, .nameOrEnd⟩
  | .openList => some ⟨.list [] :: stack, .valueOrEnd⟩
  | .text (some s) => some (place stack (.text s))
  | .text none => some (place stack .unreadable)
  | .atom v => some (place stack v)
  | _ => none

/-- Begins an entry of the innermost record. -/
def openEntry : List Frame → Token → Option Machine
  | .record entries _ :: rest, .text name => some ⟨.record entries name :: rest, .colon⟩
  | _, _ => none

/-- Takes one token. -/
def Machine.step (m : Machine) (t : Token) : Option Machine :=
  match m.expect, t with
  | .valueOrEnd, .closeList => closeIf false m.stack
  | .value, t | .valueOrEnd, t => openValue m.stack t
  | .nameOrEnd, .closeRecord => closeIf true m.stack
  | .name, t | .nameOrEnd, t => openEntry m.stack t
  | .colon, .colon => some ⟨m.stack, .value⟩
  | .separator none, .comma =>
    match m.stack with
    | .list _ :: _ => some ⟨m.stack, .value⟩
    | .record _ _ :: _ => some ⟨m.stack, .name⟩
    | [] => none
  | .separator none, .closeList => closeIf false m.stack
  | .separator none, .closeRecord => closeIf true m.stack
  | _, _ => none

/-- The value that a sequence of tokens writes. -/
def assemble? (ts : List Token) : Option Value := do
  let m ← ts.foldlM Machine.step ⟨[], .value⟩
  match m.expect with
  | .separator whole => whole
  | _ => none

/-- Reads a text.  Parts of it may denote nothing. -/
def parse? (s : String) : Option Value := do
  assemble? (← scan? s.toList)

/-- Reads a text every part of which has to denote something. -/
def parseStrict? (s : String) : Option Value := do
  let v ← parse? s
  if v.readable then some v else none

/-- JSON as a format for records: a choice without content is null, and a
    sequence ends with its record. -/
def format : Format where
  isUnit v := match v with
    | .null => true
    | _ => false
  runsOn := false

end OrderFlow.Json
