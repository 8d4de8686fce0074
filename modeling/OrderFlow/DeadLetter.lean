import OrderFlow.Data.Scalars

/-! # Dead letters

    A dead letter is the snapshot of an order at the moment it was given up
    on.  An order has at most one, and loses it when it is put back. -/

namespace OrderFlow

open Data

/-- The snapshot of an order that was given up on. -/
structure DeadLetter where
  /-- The order. -/
  order : OrderId
  /-- Why its last attempt failed. -/
  reason : String
  /-- How many attempts on it had failed, as the order has counted them: a number below
      `2 ^ 32`. -/
  retryCount : Nat
  /-- When it was given up on. -/
  failedAt : Instant
  deriving DecidableEq

namespace DeadLetter

/-- The most letters that one listing returns. -/
def listMax : Nat := 200

/-- How many letters a listing returns where nobody says. -/
def listDefault : Nat := 50

/-- The size of a listing that was asked for: at least one and at most `listMax`. -/
def clampLimit (limit : Nat) : Nat :=
  min (max limit 1) listMax

/-- The order of listings: newest first, and by order id where two are
    equally new. -/
def newerOrEqual (a b : DeadLetter) : Bool :=
  if b.failedAt < a.failedAt then true
  else if a.failedAt < b.failedAt then false
  else (compare a.order b.order).isLE

/-- The fields of a letter's record, in writing order. -/
def fieldNames : List String :=
  ["orderId", "reason", "retryCount", "failedAt"]

/-- Writes a letter. -/
def toValue (d : DeadLetter) : Value :=
  .record [
    ("orderId", ofOrderId d.order),
    ("reason", .text d.reason),
    ("retryCount", ofNat d.retryCount),
    ("failedAt", ofInstant d.failedAt)]

/-- Reads a letter. -/
def ofValue? (v : Value) : Option DeadLetter := do
  match ← fields? fieldNames false v with
  | [order, reason, retryCount, failedAt] =>
    some {
      order := ← required orderId? order
      reason := ← required Value.text? reason
      retryCount := ← required counter? retryCount
      failedAt := ← required instant? failedAt }
  | _ => none

end DeadLetter

end OrderFlow
