/-! # Self-describing data

    What a JSON or a TOML text says, before anything asks what it means.
    Both readers produce a `Value`; every record of the library is decoded
    from one and encoded into one. -/

namespace OrderFlow.Data

/-- A piece of data. -/
inductive Value where
  /-- The absent value. -/
  | null
  /-- A truth value. -/
  | bool (b : Bool)
  /-- A number written without fraction and exponent. -/
  | int (n : Int)
  /-- Any other number.  No record holds one, so its size is not kept. -/
  | real
  /-- A text. -/
  | text (s : String)
  /-- A sequence. -/
  | list (items : List Value)
  /-- Named values, in the order of the text; a name may occur twice. -/
  | record (entries : List (String × Value))
  /-- A piece of text that follows the grammar but denotes nothing: a string
      with half a surrogate pair, a number beyond the double range, a
      container nested too deeply.  It may stand where nobody looks. -/
  | unreadable

mutual

/-- Does every part of the value denote something? -/
def Value.readable : Value → Bool
  | .unreadable => false
  | .list items => readableItems items
  | .record entries => readableEntries entries
  | _ => true

/-- Is every item readable? -/
def readableItems : List Value → Bool
  | [] => true
  | v :: rest => v.readable && readableItems rest

/-- Is the value of every entry readable? -/
def readableEntries : List (String × Value) → Bool
  | [] => true
  | (_, v) :: rest => v.readable && readableEntries rest

end

/-- The last entry of the given name, in a record. -/
def Value.last? (name : String) : Value → Option Value
  | .record entries => (entries.reverse.find? fun e => e.1 == name).map (·.2)
  | _ => none

/-- The text, of a text. -/
def Value.text? : Value → Option String
  | .text s => some s
  | _ => none

/-- The truth value, of a truth value. -/
def Value.bool? : Value → Option Bool
  | .bool b => some b
  | _ => none

/-- The number, of an integer from 0 up to and without `bound`. -/
def Value.natBelow? (bound : Nat) : Value → Option Nat
  | .int n => if 0 ≤ n ∧ n < bound then some n.toNat else none
  | _ => none

/-- The value of a field that may be missing or null. -/
def Value.optional (read : Value → Option α) : Option Value → Option (Option α)
  | none | some .null => some none
  | some v => (read v).map some

/-- A value that may be missing, written as null. -/
def Value.ofOption (write : α → Value) : Option α → Value
  | none => .null
  | some a => write a

end OrderFlow.Data
