/-! # Digits

    Numbers as digit characters, most significant first, in any base up to
    sixteen.  Writing goes through `digitsOf`, reading through `digitValue`
    and `ofDigits`; `padded` fills up with zeros on the left. -/

namespace OrderFlow.Text

/-- The digit for a value below sixteen, letters in lower case. -/
def digitChar (n : Nat) : Char :=
  if n < 10 then Char.ofNat (0x30 + n) else Char.ofNat (0x57 + n)

/-- The value of a digit, letters in either case. -/
def digitValue (c : Char) : Option Nat :=
  let n := c.toNat
  if 0x30 ≤ n && n ≤ 0x39 then some (n - 0x30)
  else if 0x61 ≤ n && n ≤ 0x66 then some (n - 0x57)
  else if 0x41 ≤ n && n ≤ 0x46 then some (n - 0x37)
  else none

/-- Is `c` one of the ten decimal digits? -/
def isDecimal (c : Char) : Bool :=
  0x30 ≤ c.toNat && c.toNat ≤ 0x39

/-- Is `c` a digit of the given base? -/
def isDigitOf (base : Nat) (c : Char) : Bool :=
  match digitValue c with
  | some d => d < base
  | none => false

/-- The digits of `n` in a base of at least two, without leading zeros;
    zero has the one digit `0`. -/
def digitsOf (base n : Nat) : List Char :=
  if _h : 2 ≤ base ∧ base ≤ n then
    digitsOf base (n / base) ++ [digitChar (n % base)]
  else
    [digitChar n]
  termination_by n
  decreasing_by exact Nat.div_lt_self (by omega) (by omega)

/-- The number that a run of digits writes in the given base; a character
    that is no digit counts as zero. -/
def ofDigits (base : Nat) (cs : List Char) : Nat :=
  cs.foldl (fun n c => base * n + (digitValue c).getD 0) 0

/-- The `width` lowest digits of `n`, with zeros in front where `n` is
    shorter. -/
def paddedDigits (base : Nat) : (width : Nat) → (n : Nat) → List Char
  | 0, _ => []
  | width + 1, n => paddedDigits base width (n / base) ++ [digitChar (n % base)]

/-- `n` in decimal. -/
def decimal (n : Nat) : String :=
  String.ofList (digitsOf 10 n)

/-- `n` in decimal with a minus sign where it is negative. -/
def signedDecimal (n : Int) : String :=
  match n with
  | .ofNat n => decimal n
  | .negSucc n => String.ofList ('-' :: digitsOf 10 (n + 1))

/-- `n` in decimal, with zeros in front up to `width` digits. -/
def paddedDecimal (width n : Nat) : List Char :=
  if n < 10 ^ width then paddedDigits 10 width n else digitsOf 10 n

end OrderFlow.Text
