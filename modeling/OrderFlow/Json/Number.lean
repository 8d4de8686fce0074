import OrderFlow.Data.Magnitude
import OrderFlow.Data.Value
import OrderFlow.Text.Digits

/-! # JSON numbers

    A number has a whole part, perhaps a fraction and perhaps an exponent.
    Whole numbers are exact.  Any other number is a significand, which holds
    as many of the leading digits as 64 bits can, times a power of ten; it
    denotes nothing where that product, taken in doubles, overflows. -/

namespace OrderFlow.Json

open Data Text

/-- Takes one or more digits off the front. -/
def digits1 (cs : List Char) : Option (List Char × List Char) :=
  let ds := cs.takeWhile isDecimal
  if ds.isEmpty then none else some (ds, cs.drop ds.length)

/-- The fraction of a number, if it has one: the digits after the point. -/
def fraction : List Char → Option (List Char × List Char)
  | '.' :: rest => digits1 rest
  | rest => some ([], rest)

/-- The exponent of a number, 0 if it has none. -/
def exponent : List Char → Option (Int × List Char)
  | 'e' :: rest | 'E' :: rest =>
    match rest with
    | '-' :: rest => (digits1 rest).map fun (ds, rest) => (-(ofDigits 10 ds : Int), rest)
    | '+' :: rest => (digits1 rest).map fun (ds, rest) => ((ofDigits 10 ds : Int), rest)
    | rest => (digits1 rest).map fun (ds, rest) => ((ofDigits 10 ds : Int), rest)
  | rest => some (0, rest)

/-- Every significand is below this. -/
def significandBound : Nat := 2 ^ 64

/-- Takes digits into a significand up to the first that it cannot hold;
    answers it and the digits that are left. -/
def absorb (significand : Nat) : List Char → Nat × List Char
  | [] => (significand, [])
  | c :: rest =>
    let longer := 10 * significand + (digitValue c).getD 0
    if longer < significandBound then absorb longer rest else (significand, c :: rest)

/-- Does the number with these parts overflow?  Digits of the whole part that
    the significand cannot hold count as zeros; the fraction goes on with the
    significand as it is then, and the digits of it that are left do not
    count. -/
def overflows (whole frac : List Char) (exp : Int) : Bool :=
  let (significand, dropped) := absorb 0 whole
  let (significand, ignored) := absorb significand frac
  productOverflows significand (dropped.length - (frac.length - ignored.length) + exp)

/-- The value of a number without sign: digits without a leading zero, then
    perhaps a fraction, then perhaps an exponent.  A negative zero is no
    integer. -/
def magnitude (negative : Bool) (cs : List Char) : Option Value := do
  let (whole, rest) ← digits1 cs
  if whole.head? = some '0' ∧ whole.length ≠ 1 then none
  let (frac, rest') ← fraction rest
  let (exp, rest'') ← exponent rest'
  if !rest''.isEmpty then none
  if overflows whole frac exp then some .unreadable
  else if rest.isEmpty then
    let n := ofDigits 10 whole
    if negative then some (if n = 0 then .real else .int (-n)) else some (.int n)
  else some .real

end OrderFlow.Json
