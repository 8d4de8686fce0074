import OrderFlow.Table
import OrderFlow.Order.Id

/-! # The order processor

    The work behind an order is done elsewhere.  What a processor does may
    depend on all the calls that it has had; it takes time, it may fail, and
    while it works the store and the transport may go down or come up. -/

namespace OrderFlow

/-- A change of what is available, made by others. -/
structure Disturbance where
  /-- Makes the store available or unavailable, or leaves it as it is. -/
  store : Option Bool := none
  /-- Makes the transport available or unavailable, or leaves it as it is. -/
  transport : Option Bool := none
  deriving DecidableEq

/-- What a processor does in one call. -/
structure Reaction where
  /-- How many milliseconds it takes. -/
  takesMs : Nat := 0
  /-- What becomes of the store and the transport meanwhile. -/
  disturbance : Disturbance := {}
  /-- Why it fails, if it does. -/
  failure : Option String := none
  deriving DecidableEq

/-- An order processor. -/
structure Processor where
  /-- The orders that it was called for, in the order of the calls. -/
  calls : List OrderId := []
  /-- What it does with an order, after the given calls. -/
  react : List OrderId → OrderId → Reaction := fun _ _ => {}

namespace Processor

/-- A processor that goes on from `p`'s calls, reacts with each of `script`
    in turn and then always with `otherwise`. -/
def rescript (p : Processor) (script : List Reaction) (otherwise : Reaction) : Processor where
  calls := p.calls
  react calls _ := script.getD (calls.length - p.calls.length) otherwise

/-- How often the processor was called for each order, in the order of the
    first calls. -/
def counts (p : Processor) : Table OrderId Nat :=
  p.calls.foldl (fun t id => t.put id ((t.find? id).getD 0 + 1)) []

end Processor

/-- How likely a simulated processor is to fail, where that is certain. -/
inductive FailureChance where
  /-- It never fails. -/
  | never
  /-- It always fails. -/
  | always
  deriving DecidableEq

/-- The chance of failure `mantissa / 10 ^ places`, if it is certain.  What is
    below 0 counts as 0 and what is above 1 as 1. -/
def FailureChance.ofDecimal? (mantissa : Int) (places : Nat) : Option FailureChance :=
  if mantissa ≤ 0 then some .never
  else if 10 ^ places ≤ mantissa then some .always
  else none

namespace Processor

/-- How many milliseconds a simulated processor takes where nobody says. -/
def simulatedDelayMs : Nat := 500

/-- A processor that only takes time and fails as `chance` says. -/
def simulated (chance : FailureChance) (delayMs : Nat) : Processor where
  react _ _ := {
    takesMs := delayMs
    failure := match chance with
      | .never => none
      | .always => some "simulated failure" }

end Processor

end OrderFlow
