import OrderFlow.Json.Number

/-! # JSON tokens

    The scanner goes through a text once, one character at a time, and
    keeps what it is in the middle of: nothing, a word, a number, a string,
    an escape, or the digits of a `\u` escape.

    A string whose escapes spell half a surrogate pair is a string for the
    grammar but not a text. -/

namespace OrderFlow.Json

open Data Text

/-- A token. -/
inductive Token where
  /-- The brace that begins a record. -/
  | openRecord
  /-- The brace that ends a record. -/
  | closeRecord
  /-- The bracket that begins a list. -/
  | openList
  /-- The bracket that ends a list. -/
  | closeList
  /-- A comma. -/
  | comma
  /-- A colon. -/
  | colon
  /-- A string, `none` where it is not a text. -/
  | text (s : Option String)
  /-- A number or one of the three words. -/
  | atom (v : Value)

/-- The part of a string that has been read. -/
structure Partial where
  /-- The characters so far, last first. -/
  chars : List Char
  /-- The first half of a surrogate pair that waits for its second. -/
  pending : Option Nat
  /-- Has no half pair been met? -/
  sound : Bool

namespace Partial

/-- Adds a character that was not spelled by its code. -/
def push (p : Partial) (c : Char) : Partial :=
  ⟨c :: p.chars, none, p.sound && p.pending.isNone⟩

/-- Adds a code unit that an escape spells. -/
def pushUnit (p : Partial) (unit : Nat) : Partial :=
  match p.pending with
  | some high =>
    if 0xDC00 ≤ unit ∧ unit < 0xE000 then
      ⟨Char.ofNat (0x10000 + (high - 0xD800) * 0x400 + (unit - 0xDC00)) :: p.chars, none, p.sound⟩
    else
      ⟨p.chars, none, false⟩
  | none =>
    if 0xD800 ≤ unit ∧ unit < 0xDC00 then ⟨p.chars, some unit, p.sound⟩
    else if 0xDC00 ≤ unit ∧ unit < 0xE000 then ⟨p.chars, none, false⟩
    else ⟨Char.ofNat unit :: p.chars, none, p.sound⟩

/-- The finished string. -/
def finish (p : Partial) : Option String :=
  if p.sound ∧ p.pending.isNone then some (String.ofList p.chars.reverse) else none

end Partial

/-- What the scanner is in the middle of. -/
inductive Mode where
  /-- Between tokens. -/
  | between
  /-- In a word or a number; its characters, last first. -/
  | word (chars : List Char)
  /-- In a string. -/
  | string (p : Partial)
  /-- After a backslash in a string. -/
  | escape (p : Partial)
  /-- In the digits of a code: how many are missing, and the value so far. -/
  | code (p : Partial) (missing : Nat) (value : Nat)

/-- The characters that JSON allows between tokens. -/
def isGap (c : Char) : Bool :=
  c == ' ' || c == '\n' || c == '\t' || c == '\r'

/-- May `c` be part of a word or a number? -/
def isWordChar (c : Char) : Bool :=
  c.isAlphanum || c == '-' || c == '+' || c == '.'

/-- The value of a word or a number. -/
def atom? : List Char → Option Value
  | ['n', 'u', 'l', 'l'] => some .null
  | ['t', 'r', 'u', 'e'] => some (.bool true)
  | ['f', 'a', 'l', 's', 'e'] => some (.bool false)
  | '-' :: rest => magnitude true rest
  | cs => magnitude false cs

/-- What a character begins, between tokens: the tokens that it completes
    and the mode after it. -/
def begin? (c : Char) : Option (List Token × Mode) :=
  if isGap c then some ([], .between)
  else if c = '\x7b' then some ([.openRecord], .between)
  else if c = '\x7d' then some ([.closeRecord], .between)
  else if c = '[' then some ([.openList], .between)
  else if c = ']' then some ([.closeList], .between)
  else if c = ',' then some ([.comma], .between)
  else if c = ':' then some ([.colon], .between)
  else if c = '"' then some ([], .string ⟨[], none, true⟩)
  else if isWordChar c then some ([], .word [c])
  else none

/-- The character that a one-letter escape spells. -/
def escaped? (c : Char) : Option Char :=
  if c = '"' ∨ c = '\\' ∨ c = '/' then some c
  else if c = 'b' then some (Char.ofNat 0x8)
  else if c = 'f' then some (Char.ofNat 0xC)
  else if c = 'n' then some '\n'
  else if c = 'r' then some '\r'
  else if c = 't' then some '\t'
  else none

/-- Reads one character: the tokens that it completes and the mode after it. -/
def Mode.step (m : Mode) (c : Char) : Option (List Token × Mode) :=
  match m with
  | .between => begin? c
  | .word chars =>
    if isWordChar c then some ([], .word (c :: chars))
    else do
      let v ← atom? chars.reverse
      let (ts, m) ← begin? c
      some (.atom v :: ts, m)
  | .string p =>
    if c = '"' then some ([.text p.finish], .between)
    else if c = '\\' then some ([], .escape p)
    else if c.toNat < 0x20 then none
    else some ([], .string (p.push c))
  | .escape p =>
    if c = 'u' then some ([], .code p 4 0)
    else (escaped? c).map fun d => ([], .string (p.push d))
  | .code p missing value => do
    let d ← digitValue c
    let value := 16 * value + d
    if missing ≤ 1 then some ([], .string (p.pushUnit value))
    else some ([], .code p (missing - 1) value)

/-- Scans a whole text, adding to the tokens found so far, last first. -/
def scanFrom (m : Mode) (found : List Token) : List Char → Option (List Token)
  | [] =>
    match m with
    | .between => some found.reverse
    | .word chars => (atom? chars.reverse).map fun v => (.atom v :: found).reverse
    | _ => none
  | c :: rest =>
    match m.step c with
    | none => none
    | some (ts, m) => scanFrom m (ts.reverse ++ found) rest

/-- The tokens of a text. -/
def scan? (cs : List Char) : Option (List Token) :=
  scanFrom .between [] cs

end OrderFlow.Json
