import OrderFlow.Time.Duration

/-! # Instants

    A moment in UTC with nanoseconds, from the start of the year -262143 to
    the end of the year 262142.  An inserted leap second has no number of
    its own: it is written as a second that goes on for up to two, so `nano`
    runs up to `2 * 10 ^ 9`.

    Shifts saturate: a sum or difference that leaves the range is its end. -/

namespace OrderFlow

/-- Nanoseconds in a second. -/
def nanosPerSecond : Nat := 1000000000

/-- A moment in UTC. -/
structure Instant where
  /-- Whole seconds since 1970-01-01T00:00:00Z. -/
  second : Int
  /-- Nanoseconds since that second began. -/
  nano : Nat
  /-- Only a leap second goes on after a full second. -/
  nano_lt : nano < 2000000000
  /-- Nothing is before -262143-01-01T00:00:00Z. -/
  first_le : -8334601228800 ≤ second
  /-- Nothing is after +262142-12-31T23:59:59Z and the second it begins. -/
  le_last : second ≤ 8210266876799
  deriving DecidableEq

namespace Instant

/-- The instant with these parts, if there is one. -/
def make? (second : Int) (nano : Nat) : Option Instant :=
  if h : nano < 2000000000 ∧ -8334601228800 ≤ second ∧ second ≤ 8210266876799 then
    some ⟨second, nano, h.1, h.2.1, h.2.2⟩
  else
    none

/-- The instant `n` nanoseconds after 1970-01-01T00:00:00Z, if there is one. -/
def ofNanos? (n : Int) : Option Instant :=
  make? (n / nanosPerSecond) (n % nanosPerSecond).toNat

/-- The first instant. -/
def earliest : Instant :=
  ⟨-8334601228800, 0, by decide, by decide, by decide⟩

/-- The last instant that is not in a leap second. -/
def latest : Instant :=
  ⟨8210266876799, 999999999, by decide, by decide, by decide⟩

/-- 2024-01-01T00:00:00Z, where clocks that are not set begin. -/
def newYear2024 : Instant :=
  ⟨1704067200, 0, by decide, by decide, by decide⟩

/-- Instants are ordered by their second and then by their nanosecond, so a
    leap second comes before the second after it. -/
instance : LT Instant where
  lt a b := a.second < b.second ∨ (a.second = b.second ∧ a.nano < b.nano)

instance : LE Instant where
  le a b := ¬ b < a

instance (a b : Instant) : Decidable (a < b) :=
  inferInstanceAs (Decidable (_ ∨ _))

instance (a b : Instant) : Decidable (a ≤ b) :=
  inferInstanceAs (Decidable (¬ _))

/-- The later of two instants. -/
instance : Max Instant where
  max a b := if a < b then b else a

/-- The earlier of two instants. -/
instance : Min Instant where
  min a b := if b < a then b else a

/-- Is the instant inside a leap second? -/
def isLeap (t : Instant) : Bool :=
  nanosPerSecond ≤ t.nano

/-- Nanoseconds since 1970-01-01T00:00:00Z. -/
def toNanos (t : Instant) : Int :=
  t.second * nanosPerSecond + t.nano

/-- The instant `d` after `t`, or the latest one.  Time that passes inside a
    leap second is not counted once the second is over. -/
def later (t : Instant) (d : Duration) : Instant :=
  if h : t.isLeap ∧ t.nano + d.nanoseconds < 2000000000 then
    { t with nano := t.nano + d.nanoseconds, nano_lt := h.2 }
  else
    (ofNanos? (t.second * nanosPerSecond + (t.nano % nanosPerSecond + d.nanoseconds : Nat))).getD
      latest

/-- The instant `d` before `t`, or the earliest one. -/
def earlier (t : Instant) (d : Duration) : Instant :=
  if t.isLeap ∧ nanosPerSecond + d.nanoseconds ≤ t.nano then
    { t with
      nano := t.nano - d.nanoseconds
      nano_lt := Nat.lt_of_le_of_lt (Nat.sub_le _ _) t.nano_lt }
  else
    (ofNanos? (t.toNanos - d.nanoseconds)).getD earliest

end Instant

end OrderFlow
