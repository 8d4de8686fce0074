/-! # Durations

    Spans of time in whole nanoseconds.  Where a span is stored as a count
    of milliseconds the count is cut off at the largest 64-bit value. -/

namespace OrderFlow

/-- A span of time. -/
structure Duration where
  /-- Its length in nanoseconds. -/
  nanoseconds : Nat
  deriving DecidableEq

namespace Duration

/-- The largest count that a stored number of milliseconds or seconds can have. -/
def maxCount : Nat := 2 ^ 64 - 1

/-- A span of whole milliseconds. -/
def ofMilliseconds (n : Nat) : Duration := ⟨n * 1000000⟩

/-- A span of whole seconds. -/
def ofSeconds (n : Nat) : Duration := ⟨n * 1000000000⟩

/-- The whole milliseconds in the span, cut off at `maxCount`. -/
def toMilliseconds (d : Duration) : Nat := min (d.nanoseconds / 1000000) maxCount

/-- The whole seconds in the span. -/
def toSeconds (d : Duration) : Nat := d.nanoseconds / 1000000000

end Duration

end OrderFlow
