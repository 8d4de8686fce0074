import OrderFlow.Data.Fields
import OrderFlow.Order.Id
import OrderFlow.Time.Rfc3339

/-! # Fields of records

    How ids, instants and counters stand in records.  Ids and instants are
    texts; a counter has 32 bits, a setting that counts has 64. -/

namespace OrderFlow.Data

/-- The bound of a 32-bit counter. -/
def counterBound : Nat := 2 ^ 32

/-- The bound of a 64-bit count. -/
def countBound : Nat := 2 ^ 64

/-- Reads an id; no blanks may stand around it. -/
def uuid? (v : Value) : Option Uuid :=
  v.text?.bind Uuid.parse?

/-- Reads the id of an order. -/
def orderId? (v : Value) : Option OrderId :=
  (uuid? v).map OrderId.mk

/-- Reads the id of an outbox row. -/
def rowId? (v : Value) : Option RowId :=
  (uuid? v).map RowId.mk

/-- Reads an instant. -/
def instant? (v : Value) : Option Instant :=
  v.text?.bind Instant.parse?

/-- Reads a counter. -/
def counter? (v : Value) : Option Nat :=
  v.natBelow? counterBound

/-- Reads a count. -/
def count? (v : Value) : Option Nat :=
  v.natBelow? countBound

/-- Writes an id. -/
def ofOrderId (id : OrderId) : Value :=
  .text (toString id)

/-- Writes the id of an outbox row. -/
def ofRowId (id : RowId) : Value :=
  .text (toString id)

/-- Writes an instant. -/
def ofInstant (t : Instant) : Value :=
  .text (toString t)

/-- Writes a counter or a count. -/
def ofNat (n : Nat) : Value :=
  .int n

/-- Reads a field that has to be there. -/
def required (read : Value → Option α) (field : Option Value) : Option α :=
  field.bind read

/-- Reads a field that has a default. -/
def orDefault (default : α) (read : Value → Option α) : Option Value → Option α
  | none => some default
  | some v => read v

end OrderFlow.Data
