import OrderFlow.Text.Digits
import OrderFlow.Text.Hidden

/-! # Quoted text

    A text between double quotes as error messages show it: line breaks,
    tabs, quotes and backslashes by their short escapes, every other hidden
    character by its code point, all else as it is. -/

namespace OrderFlow.Text

/-- How one character is written between the quotes. -/
def quoteChar (c : Char) : List Char :=
  if c = '\x00' then ['\\', '0']
  else if c = '\t' then ['\\', 't']
  else if c = '\r' then ['\\', 'r']
  else if c = '\n' then ['\\', 'n']
  else if c = '"' then ['\\', '"']
  else if c = '\\' then ['\\', '\\']
  else if isHidden c then ['\\', 'u', '\x7b'] ++ digitsOf 16 c.toNat ++ ['\x7d']
  else [c]

/-- `s` between double quotes. -/
def quoted (s : String) : String :=
  String.ofList (['"'] ++ s.toList.flatMap quoteChar ++ ['"'])

end OrderFlow.Text
