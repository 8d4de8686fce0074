import OrderFlow.Data.Value
import OrderFlow.Text.Digits

/-! # JSON, written

    The compact form: no blanks, entries in the order of the record.  In a
    string the quote, the backslash and the control characters below a
    space are escaped and everything else stands as it is. -/

namespace OrderFlow.Json

open Data Text

/-- How one character is written inside a string. -/
def escapeChar (c : Char) : List Char :=
  if c = '"' then ['\\', '"']
  else if c = '\\' then ['\\', '\\']
  else if c = '\n' then ['\\', 'n']
  else if c = '\r' then ['\\', 'r']
  else if c = '\t' then ['\\', 't']
  else if c.toNat = 0x8 then ['\\', 'b']
  else if c.toNat = 0xC then ['\\', 'f']
  else if c.toNat < 0x20 then ['\\', 'u'] ++ paddedDigits 16 4 c.toNat
  else [c]

/-- A string with its quotes. -/
def renderText (s : String) : List Char :=
  '"' :: s.toList.flatMap escapeChar ++ ['"']

mutual

/-- The compact form.  What denotes nothing is written as null. -/
def render : Value → List Char
  | .null | .real | .unreadable => ['n', 'u', 'l', 'l']
  | .bool true => ['t', 'r', 'u', 'e']
  | .bool false => ['f', 'a', 'l', 's', 'e']
  | .int n => (signedDecimal n).toList
  | .text s => renderText s
  | .list items => '[' :: renderItems items ++ [']']
  | .record entries => '\x7b' :: renderEntries entries ++ ['\x7d']

/-- Items with commas between them. -/
def renderItems : List Value → List Char
  | [] => []
  | [v] => render v
  | v :: rest => render v ++ ',' :: renderItems rest

/-- Entries with commas between them. -/
def renderEntries : List (String × Value) → List Char
  | [] => []
  | [(name, v)] => renderText name ++ ':' :: render v
  | (name, v) :: rest => renderText name ++ ':' :: render v ++ ',' :: renderEntries rest

end

/-- The compact form as a text. -/
def toText (v : Value) : String :=
  String.ofList (render v)

end OrderFlow.Json
