import OrderFlow.Data.Magnitude
import OrderFlow.Data.Value
import OrderFlow.Text.Digits
import OrderFlow.Time.Calendar
import OrderFlow.Toml.Scan

/-! # TOML strings, numbers and dates

    Strings come in four kinds: with or without escapes, on one line or on
    several.  A number that is no integer and a date are checked and then
    forgotten, because no record holds one; a date is passed on as a record
    with a name that no record knows. -/

namespace OrderFlow.Toml

open Data Text Scan

/-! ## Gaps -/

/-- A space or a tab. -/
def isGap (c : Char) : Bool := c == ' ' || c == '\t'

/-- Spaces and tabs. -/
def gap : Scan Unit := do
  let _ ← many isGap

/-- The end of a line. -/
def newline : Scan Unit :=
  char '\n' <|> chars ['\r', '\n']

/-- May `c` stand in a comment?  All but control characters, a tab apart. -/
def isCommentChar (c : Char) : Bool :=
  c == '\t' || (0x20 ≤ c.toNat && c.toNat != 0x7F)

/-- A comment, up to the end of its line. -/
def comment : Scan Unit := do
  char '#'
  let _ ← many isCommentChar

/-- The end of a line, or of the text. -/
def lineEnd : Scan Unit := newline <|> atEnd

/-- What may follow a statement on its line. -/
def trailing : Scan Unit := do
  gap
  let _ ← maybe comment
  lineEnd

/-- What may stand between the items of a list. -/
def spacing : Scan Unit := do
  let _ ← repeated ((do let _ ← some1 isGap) <|> newline <|> comment)

/-! ## Strings -/

/-- May `c` stand for itself in a string with escapes? -/
def isBasicChar (c : Char) : Bool :=
  isCommentChar c && c != '"' && c != '\\'

/-- May `c` stand in a string without escapes? -/
def isLiteralChar (c : Char) : Bool :=
  isCommentChar c && c != '\x27'

/-- The character with the code that `n` hexadecimal digits give. -/
def codePoint (n : Nat) : Scan Char := do
  let ds ← exactly n (isDigitOf 16)
  let code := ofDigits 16 ds
  if code < 0xD800 ∨ (0xE000 ≤ code ∧ code < 0x110000) then pure (Char.ofNat code) else failure

/-- An escape, from its backslash on. -/
def escape : Scan Char := do
  char '\\'
  match ← charIf fun _ => true with
  | 'b' => pure (Char.ofNat 0x8)
  | 't' => pure '\t'
  | 'n' => pure '\n'
  | 'f' => pure (Char.ofNat 0xC)
  | 'r' => pure '\r'
  | '"' => pure '"'
  | '\\' => pure '\\'
  | 'u' => codePoint 4
  | 'U' => codePoint 8
  | _ => failure

/-- A string with escapes on one line. -/
def basicString : Scan (List Char) := do
  char '"'
  let parts ← repeated (some1 isBasicChar <|> (do pure [← escape]))
  char '"'
  pure parts.flatten

/-- A string without escapes on one line. -/
def literalString : Scan (List Char) := do
  char '\x27'
  let cs ← many isLiteralChar
  char '\x27'
  pure cs

/-- One or two quotes, where `next` comes after them. -/
def quotesBefore (quote : Char) (next : Scan Unit) : Scan (List Char) :=
  (do chars [quote, quote]; ahead next; pure [quote, quote]) <|>
    (do char quote; ahead next; pure [quote])

/-- A string on several lines between three quotes.  The line break after
    the opening quotes is dropped; one or two quotes may stand anywhere
    inside. -/
def multiline (quote : Char) (content : Scan (List Char)) : Scan (List Char) := do
  let fence := chars [quote, quote, quote]
  fence
  let _ ← maybe newline
  let first ← repeated content
  let more ← repeated do
    let quotes ← quotesBefore quote (do let _ ← charIf (· != quote))
    let some part ← maybe content | failure
    let rest ← repeated content
    pure (quotes ++ part ++ rest.flatten)
  let last ← maybe (quotesBefore quote fence)
  fence
  pure (first.flatten ++ more.flatten ++ last.getD [])

/-- A line break inside a string on several lines. -/
def innerBreak : Scan (List Char) := do
  newline
  pure ['\n']

/-- A backslash at the end of a line, which drops all blanks and line breaks
    after it. -/
def joinedLines : Scan (List Char) := do
  char '\\'
  gap
  newline
  let _ ← repeated ((do let _ ← some1 isGap) <|> newline)
  pure []

/-- A string with escapes on several lines. -/
def multilineBasicString : Scan (List Char) :=
  multiline '"' (some1 isBasicChar <|> joinedLines <|> (do pure [← escape]) <|> innerBreak)

/-- A string without escapes on several lines. -/
def multilineLiteralString : Scan (List Char) :=
  multiline '\x27' (some1 isLiteralChar <|> innerBreak)

/-- A string of any kind. -/
def string : Scan String := do
  pure (String.ofList
    (← multilineBasicString <|> basicString <|> multilineLiteralString <|> literalString))

/-! ## Numbers -/

/-- Digits of a base, an underscore allowed between two of them. -/
def digitRun (base : Nat) : Scan (List Char) := do
  let first ← charIf (isDigitOf base)
  let rest ← repeated (charIf (isDigitOf base) <|> (do char '_'; charIf (isDigitOf base)))
  pure (first :: rest)

/-- A sign: is it a minus? -/
def sign : Scan Bool :=
  (do char '-'; pure true) <|> (do char '+'; pure false) <|> pure false

/-- The digits of a whole number in base ten: no leading zeros. -/
def wholeDigits : Scan (List Char) :=
  (do char '0'; pure ['0']) <|> digitRun 10

/-- The exponent of a number. -/
def exponent : Scan Int := do
  char 'e' <|> char 'E'
  let negative ← sign
  let n : Int := ofDigits 10 (← digitRun 10)
  pure (if negative then -n else n)

/-- A number with a fraction or an exponent.  One that is too large for a
    double is refused, unless it is negative. -/
def decimalNumber : Scan Value := do
  let negative ← sign
  let whole ← wholeDigits
  let frac ← maybe (do char '.'; digitRun 10)
  let exp ← maybe exponent
  if frac.isNone ∧ exp.isNone then failure
  let ds := (whole ++ frac.getD []).dropWhile (· == '0')
  if exceedsDouble (ofDigits 10 ds) ds.length (exp.getD 0 - (frac.getD []).length) ∧ !negative then
    failure
  pure .real

/-- An infinity or something that is no number. -/
def specialNumber : Scan Value := do
  let _ ← sign
  chars ['i', 'n', 'f'] <|> chars ['n', 'a', 'n']
  pure .real

/-- An integer of 64 bits, in base ten or, behind `0x`, `0o` or `0b`, in
    another one. -/
def integer : Scan Value := do
  let n : Int ←
    (do chars ['0', 'x']; pure (ofDigits 16 (← digitRun 16) : Int)) <|>
    (do chars ['0', 'o']; pure (ofDigits 8 (← digitRun 8) : Int)) <|>
    (do chars ['0', 'b']; pure (ofDigits 2 (← digitRun 2) : Int)) <|>
    (do
      let negative ← sign
      let n : Int := ofDigits 10 (← wholeDigits)
      pure (if negative then -n else n))
  if -(2 ^ 63 : Int) ≤ n ∧ n < 2 ^ 63 then pure (.int n) else failure

/-! ## Dates and times -/

/-- Two digits that write a number between the bounds. -/
def twoDigits (low high : Nat) : Scan Nat := do
  let n := ofDigits 10 (← exactly 2 isDecimal)
  if low ≤ n ∧ n ≤ high then pure n else failure

/-- A day. -/
def date : Scan Unit := do
  let year := ofDigits 10 (← exactly 4 isDecimal)
  char '-'
  let month ← twoDigits 1 12
  char '-'
  let day ← twoDigits 1 31
  if (Date.mk year month day).isValid then pure () else failure

/-- A time of day; a minute may have a leap second. -/
def timeOfDay : Scan Unit := do
  let _ ← twoDigits 0 23
  char ':'
  let _ ← twoDigits 0 59
  char ':'
  let _ ← twoDigits 0 60
  let _ ← maybe (do char '.'; some1 isDecimal)

/-- An offset from UTC. -/
def timeOffset : Scan Unit :=
  char 'Z' <|> char 'z' <|> do
    char '+' <|> char '-'
    let _ ← twoDigits 0 23
    char ':'
    let _ ← twoDigits 0 59

/-- A day, a time of day, or both, the latter also with an offset. -/
def dateTime : Scan Value := do
  (do
    date
    let _ ← maybe do
      char 'T' <|> char 't' <|> char ' '
      timeOfDay
      let _ ← maybe timeOffset) <|> timeOfDay
  pure (.record [("date-time", .null)])

/-- A value without parts. -/
def scalar : Scan Value :=
  (do pure (.text (← string))) <|> dateTime <|> decimalNumber <|> specialNumber <|> integer <|>
    (do chars ['t', 'r', 'u', 'e']; pure (.bool true)) <|>
    (do chars ['f', 'a', 'l', 's', 'e']; pure (.bool false))

end OrderFlow.Toml
