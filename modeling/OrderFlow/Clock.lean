import OrderFlow.Time.Instant

/-! # The clock

    One clock is read in two ways.  As a stopwatch it counts the milliseconds
    since it was started and never goes back; waits and deadlines use that.
    As a wall clock it shows an instant; rows and orders are stamped with
    that.  Whoever sets the wall clock leaves the stopwatch alone. -/

namespace OrderFlow

/-- A clock. -/
structure Clock where
  /-- What the wall clock shows at the start of the stopwatch. -/
  origin : Instant := .newYear2024
  /-- Milliseconds on the stopwatch. -/
  elapsed : Nat := 0
  deriving DecidableEq

namespace Clock

/-- What the wall clock shows. -/
def now (c : Clock) : Instant :=
  c.origin.later (.ofMilliseconds c.elapsed)

/-- The clock `ms` milliseconds later. -/
def advance (c : Clock) (ms : Nat) : Clock :=
  { c with elapsed := c.elapsed + ms }

/-- The clock at the stopwatch's `moment`, unless that is past. -/
def advanceTo (c : Clock) (moment : Nat) : Clock :=
  { c with elapsed := max c.elapsed moment }

end Clock

end OrderFlow
