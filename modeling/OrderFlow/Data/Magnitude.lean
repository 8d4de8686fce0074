/-! # The double range

    A double has 53 binary digits and is below `2 ^ 1024`.  A decimal number
    that would be rounded to infinity does not denote anything in the data
    formats.  One format rounds the number itself, the other one the product
    of two doubles; close to the end of the range the two differ. -/

-- Powers of numbers are those of the core library, whatever else is imported.
attribute [default_instance (20000), instance (2000)] instPowNat

namespace OrderFlow.Data

/-- The least number that is rounded to infinity: half a unit above the
    largest double. -/
def doubleBound : Nat := 2 ^ 1024 - 2 ^ 970

/-- How many decimal digits `doubleBound` has. -/
def doubleBoundDigits : Nat := 309

/-- Is `m * 10 ^ e` too large, where `m` is written with `digits` decimal
    digits and no leading zero? -/
def exceedsDouble (m digits : Nat) (e : Int) : Bool :=
  if m = 0 then false
  else if digits + e < doubleBoundDigits then false
  else if doubleBoundDigits < digits + e then true
  else if 0 ≤ e then doubleBound ≤ m * 10 ^ e.toNat
  else doubleBound * 10 ^ (-e).toNat ≤ m

/-- The number with 53 binary digits that is nearest to `n`; of two that are
    equally near, the one whose last digit is even. -/
def roundDouble (n : Nat) : Nat :=
  let unit := 2 ^ (n.log2 - 52)
  let down := n / unit
  let rest := n % unit
  if 2 * rest < unit ∨ (2 * rest = unit ∧ down % 2 = 0) then down * unit else (down + 1) * unit

/-- The largest power of ten that is a double is the one with this exponent. -/
def lastDoublePower : Nat := 308

/-- Is the product of the doubles for `m` and `10 ^ e` too large? -/
def productOverflows (m : Nat) (e : Int) : Bool :=
  if m = 0 ∨ e < 0 then false
  else if lastDoublePower < e then true
  else doubleBound ≤ roundDouble m * roundDouble (10 ^ e.toNat)

/-- A number of up to 53 binary digits stays as it is. -/
theorem roundDouble_of_lt (n : Nat) (h : n < 2 ^ 53) : roundDouble n = n := by
  have hlog : n.log2 - 52 = 0 := by
    by_cases hn : n = 0
    · subst hn
      decide
    · have := (Nat.log2_lt hn).2 h
      omega
  simp [roundDouble, hlog, Nat.mod_one]

end OrderFlow.Data
