import OrderFlow.Text.Blank
import OrderFlow.Text.Digits
import OrderFlow.Time.Calendar
import OrderFlow.Time.Instant

/-! # Instants as text

    Written form: RFC 3339 in UTC with `Z`, the fraction absent or with 3, 6
    or 9 digits, whichever is the shortest that is exact.  Years outside 0
    to 9999 carry a sign.

    Reading takes any RFC 3339 text and some looser ones: numbers may have
    fewer digits, blanks may stand between the parts, a space or `t` may
    stand for `T`, `UTC` and `z` for `Z`, and the offset may leave out its
    colon.  A fraction is cut off after nine digits. -/

namespace OrderFlow.Instant

open Text

/-! ## Writing -/

/-- The year with four digits, or with a sign and at least four digits. -/
def renderYear (y : Int) : List Char :=
  if 0 ≤ y ∧ y ≤ 9999 then paddedDecimal 4 y.toNat
  else (if y < 0 then '-' else '+') :: paddedDecimal 4 y.natAbs

/-- The shortest exact fraction, with its point. -/
def renderFraction (nano : Nat) : List Char :=
  if nano = 0 then []
  else if nano % 1000000 = 0 then '.' :: paddedDecimal 3 (nano / 1000000)
  else if nano % 1000 = 0 then '.' :: paddedDecimal 6 (nano / 1000)
  else '.' :: paddedDecimal 9 nano

/-- The written form. -/
def render (t : Instant) : List Char :=
  let date := Date.ofDayNumber (t.second / 86400)
  let ofDay := (t.second % 86400).toNat
  let second := ofDay % 60 + (if t.isLeap then 1 else 0)
  renderYear date.year ++ '-' :: paddedDecimal 2 date.month ++ '-' :: paddedDecimal 2 date.day ++
    'T' :: paddedDecimal 2 (ofDay / 3600) ++ ':' :: paddedDecimal 2 (ofDay / 60 % 60) ++
    ':' :: paddedDecimal 2 second ++ renderFraction (t.nano % nanosPerSecond) ++ ['Z']

instance : ToString Instant where
  toString t := String.ofList t.render

/-! ## Reading -/

/-- Reads at least one and at most `most` decimal digits; the number has to
    fit into 63 bits. -/
def number (most : Nat) (cs : List Char) : Option (Nat × List Char) :=
  let ds := (cs.take most).takeWhile isDecimal
  let n := ofDigits 10 ds
  if ds.isEmpty ∨ 2 ^ 63 ≤ n then none else some (n, cs.drop ds.length)

/-- Reads a number of at most two digits, blanks before it allowed, and checks its bounds. -/
def bounded (low high : Nat) (cs : List Char) : Option (Nat × List Char) := do
  let (n, rest) ← number 2 (trimStart cs)
  if low ≤ n ∧ n ≤ high then some (n, rest) else none

/-- Reads a year: up to four digits, or any number of them behind a sign. -/
def year (cs : List Char) : Option (Int × List Char) :=
  match trimStart cs with
  | '-' :: rest => (number rest.length rest).map fun (n, rest) => (-(n : Int), rest)
  | '+' :: rest => (number rest.length rest).map fun (n, rest) => ((n : Int), rest)
  | rest => (number 4 rest).map fun (n, rest) => ((n : Int), rest)

/-- Drops one given character, blanks before it allowed. -/
def literal (c : Char) (cs : List Char) : Option (List Char) :=
  match trimStart cs with
  | d :: rest => if d = c then some rest else none
  | [] => none

/-- Reads a point and a fraction in nanoseconds, or nothing. -/
def fraction (cs : List Char) : Option (Nat × List Char) :=
  match cs with
  | '.' :: rest => do
    let (n, rest') ← number 9 rest
    let width := rest.length - rest'.length
    some (n * 10 ^ (9 - width), rest'.dropWhile isDecimal)
  | _ => some (0, cs)

/-- Reads two decimal digits that write a number below `bound`. -/
def twoDigits (bound : Nat) : List Char → Option (Nat × List Char)
  | a :: b :: rest =>
    let n := ofDigits 10 [a, b]
    if isDecimal a ∧ isDecimal b ∧ n < bound then some (n, rest) else none
  | _ => none

/-- Reads an offset from UTC, in seconds; it has to be less than a day. -/
def offset (cs : List Char) : Option (Int × List Char) :=
  let signed (sign : Int) (cs : List Char) : Option (Int × List Char) := do
    let (hours, cs) ← twoDigits 24 cs
    let (minutes, cs) ← twoDigits 60 (cs.dropWhile fun c => c == ':' || isBlankChar c)
    some (sign * (hours * 3600 + minutes * 60 : Nat), cs)
  match cs with
  | 'Z' :: rest | 'z' :: rest => some (0, rest)
  | '+' :: rest => signed 1 rest
  | '-' :: rest | '\u2212' :: rest => signed (-1) rest
  | a :: b :: c :: rest =>
    if [a, b, c].map Char.toUpper = ['U', 'T', 'C'] then some (0, rest) else none
  | _ => none

/-- Reads a whole text; blanks may stand around it.  A second 60 is the leap
    second of its minute. -/
def ofList? (cs : List Char) : Option Instant := do
  let (year, cs) ← year cs
  let cs ← literal '-' cs
  let (month, cs) ← bounded 1 12 cs
  let cs ← literal '-' cs
  let (day, cs) ← bounded 1 31 cs
  let cs ← match cs with
    | 'T' :: rest | 't' :: rest | ' ' :: rest => some rest
    | _ => none
  let (hour, cs) ← bounded 0 23 cs
  let cs ← literal ':' cs
  let (minute, cs) ← bounded 0 59 cs
  let cs ← literal ':' cs
  let (second, cs) ← bounded 0 60 cs
  let (nano, cs) ← fraction cs
  let (shift, cs) ← offset (trimStart cs)
  let date : Date := ⟨year, month, day⟩
  if cs.all isBlankChar ∧ date.isValid ∧ -262143 ≤ year ∧ year ≤ 262142 then
    make?
      (date.dayNumber * 86400 + (hour * 3600 + minute * 60 + min second 59 : Nat) - shift)
      (if second = 60 then nano + nanosPerSecond else nano)
  else
    none

/-- Reads a whole text. -/
def parse? (s : String) : Option Instant :=
  ofList? s.toList

end OrderFlow.Instant
