import OrderFlow.Data.Scalars

/-! # Retry policies

    How long to wait before the next attempt: always the same time, or a
    base that doubles with every attempt until it reaches a cap.  Doubling
    stops after 32 steps, and no delay exceeds what 64 bits hold. -/

namespace OrderFlow

open Data

/-- How long to wait before the next attempt. -/
inductive RetryPolicy where
  /-- The same delay every time, in milliseconds. -/
  | fixed (delay : Nat)
  /-- A delay of `base` milliseconds that doubles up to `cap`. -/
  | exponential (base cap : Nat)
  deriving DecidableEq

namespace RetryPolicy

/-- How often a delay doubles at most. -/
def maxDoublings : Nat := 32

/-- The policy with a fixed delay. -/
def ofDelay (delay : Duration) : RetryPolicy :=
  .fixed delay.toMilliseconds

/-- The policy with a doubling delay. -/
def ofBackoff (base cap : Duration) : RetryPolicy :=
  .exponential base.toMilliseconds cap.toMilliseconds

/-- The delay before attempt number `attempt`, in milliseconds; attempts
    count from 1. -/
def delayMillis (p : RetryPolicy) (attempt : Nat) : Nat :=
  match p with
  | .fixed delay => delay
  | .exponential base cap =>
    min (min (base * 2 ^ min (attempt - 1) maxDoublings) Duration.maxCount) cap

/-- The delay before attempt number `attempt`. -/
def delayBefore (p : RetryPolicy) (attempt : Nat) : Duration :=
  .ofMilliseconds (p.delayMillis attempt)

/-! ## As a record

    The field `kind` tells the policies apart and the rest depends on it; in
    a sequence the kind comes first. -/

/-- Writes a policy. -/
def toValue : RetryPolicy → Value
  | .fixed delay => .record [("kind", .text "fixed"), ("delay_ms", ofNat delay)]
  | .exponential base cap =>
    .record [("kind", .text "exponential"), ("base_ms", ofNat base), ("max_ms", ofNat cap)]

/-- Reads the fields that follow the kind. -/
def ofKind? (kind : Value) (rest : Value) : Option RetryPolicy := do
  match kind with
  | .text "fixed" =>
    match ← fields? ["delay_ms"] false rest with
    | [delay] => some (.fixed (← required count? delay))
    | _ => none
  | .text "exponential" =>
    match ← fields? ["base_ms", "max_ms"] false rest with
    | [base, cap] => some (.exponential (← required count? base) (← required count? cap))
    | _ => none
  | _ => none

/-- Reads a policy.  All of it has to be readable, since the kind may come last. -/
def ofValue? (v : Value) : Option RetryPolicy := do
  if !v.readable then none
  match v with
  | .record entries =>
    match ← single? "kind" entries with
    | some kind => ofKind? kind (.record (entries.filter fun e => e.1 != "kind"))
    | none => none
  | .list (kind :: rest) => ofKind? kind (.list rest)
  | _ => none

end RetryPolicy

end OrderFlow
