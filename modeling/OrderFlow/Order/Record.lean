import OrderFlow.Data.Scalars
import OrderFlow.Order.Basic

/-! # Orders as records -/

namespace OrderFlow

open Data

/-- Reads a status. -/
def Status.ofValue? (format : Format) (v : Value) : Option Status :=
  choice? format Status.choices v

namespace Order

/-- The fields of an order's record, in writing order. -/
def fieldNames : List String :=
  ["id", "status", "created_at", "updated_at", "retry_count", "failure_reason"]

/-- Writes an order. -/
def toValue (o : Order) : Value :=
  .record [
    ("id", ofOrderId o.id),
    ("status", .text o.status.name),
    ("created_at", ofInstant o.createdAt),
    ("updated_at", ofInstant o.updatedAt),
    ("retry_count", ofNat o.retryCount),
    ("failure_reason", .ofOption .text o.failureReason)]

/-- Reads an order. -/
def ofValue? (format : Format) (v : Value) : Option Order := do
  match ← fields? fieldNames false v with
  | [id, status, createdAt, updatedAt, retryCount, failureReason] =>
    some {
      id := ← required orderId? id
      status := ← required (Status.ofValue? format) status
      createdAt := ← required instant? createdAt
      updatedAt := ← required instant? updatedAt
      retryCount := ← required counter? retryCount
      failureReason := ← Value.optional Value.text? failureReason }
  | _ => none

end Order

end OrderFlow
