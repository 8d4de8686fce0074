import OrderFlow.Data.Value

/-! # Records with known fields

    A record with known fields is read from named values in any order, or
    from a sequence in the order of the fields.  Names that are not known
    are passed over; a known name may not occur twice.

    Fields are given as the values at their names, `none` for a missing
    one.  Whether a missing field is an error, nothing, or a default is the
    record's own business. -/

namespace OrderFlow.Data

/-- The values under one name. -/
def named (name : String) (entries : List (String × Value)) : List Value :=
  (entries.filter fun e => e.1 == name).map (·.2)

/-- The one value under `name`, `none` inside where there is none, and a
    failure where there are several. -/
def single? (name : String) (entries : List (String × Value)) : Option (Option Value) :=
  match named name entries with
  | [] => some none
  | [v] => some (some v)
  | _ => none

/-- The values of the named fields.  A sequence has to be complete, unless
    `partially` says that it may stop early. -/
def fields? (names : List String) (partially : Bool) : Value → Option (List (Option Value))
  | .record entries => names.mapM fun name => single? name entries
  | .list items =>
    if items.length = names.length ∨ (partially ∧ items.length < names.length) then
      some (items.map some ++ List.replicate (names.length - items.length) none)
    else
      none
  | _ => none

/-- What tells one kind of data text from another where records meet it. -/
structure Format where
  /-- How the format writes a choice without content, next to the choice's name. -/
  isUnit : Value → Bool
  /-- May a sequence go on after the last field of its record? -/
  runsOn : Bool

/-- The value without the items that stand after `count` fields, where the
    format allows such items. -/
def Format.cut (format : Format) (count : Nat) : Value → Value
  | .list items => .list (if format.runsOn then items.take count else items)
  | v => v

/-- One of several named choices: its name, or a record of that name alone
    without content. -/
def choice? (format : Format) (choices : List (String × α)) : Value → Option α
  | .text s => choices.lookup s
  | .record [(name, content)] => if format.isUnit content then choices.lookup name else none
  | _ => none

end OrderFlow.Data
