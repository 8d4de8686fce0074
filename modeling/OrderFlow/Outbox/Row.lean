import OrderFlow.Outbox.Payload
import OrderFlow.Order.Record

/-! # Outbox rows

    A row is written together with the order change that it announces and
    outlives a crash.  A worker claims it, which leases it under the
    worker's name, and settles it later.  The lease is the pair of
    `lockedAt` and `lockedBy`, set exactly while the row is in processing. -/

namespace OrderFlow

open Data

/-- A row of the outbox. -/
structure OutboxRow where
  /-- Its id. -/
  id : RowId
  /-- The order that it is about. -/
  order : OrderId
  /-- What happened to the order. -/
  eventType : String
  /-- The body of the signal. -/
  payload : String
  /-- Its stage. -/
  status : Status
  /-- How many deliveries have been put off.  The number stands for a 32-bit counter, so it is
      below `2 ^ 32`, as records demand. -/
  attempts : Nat
  /-- It is not claimed before this time. -/
  nextAttemptAt : Instant
  /-- When it was written. -/
  createdAt : Instant
  /-- When it was leased. -/
  lockedAt : Option Instant
  /-- Who has leased it. -/
  lockedBy : Option String
  /-- When it was settled. -/
  processedAt : Option Instant
  /-- What the last failed delivery said. -/
  lastError : Option String
  deriving DecidableEq

/-- Rows still owed work, split by whether somebody holds them. -/
structure Backlog where
  /-- Rows that wait. -/
  pending : Nat
  /-- Rows in somebody's hands. -/
  processing : Nat
  deriving DecidableEq

/-- All rows still owed work. -/
def Backlog.total (b : Backlog) : Nat :=
  b.pending + b.processing

namespace OutboxRow

/-- The type of the rows that announce orders. -/
def orderCreatedType : String := "OrderCreated"

/-- A new row, due at once. -/
def fresh (id : RowId) (order : OrderId) (eventType payload : String) (now : Instant) :
    OutboxRow where
  id := id
  order := order
  eventType := eventType
  payload := payload
  status := .pending
  attempts := 0
  nextAttemptAt := now
  createdAt := now
  lockedAt := none
  lockedBy := none
  processedAt := none
  lastError := none

/-- The row that announces `order`. -/
def announcing (id : RowId) (order : OrderId) (correlation : Option String) (now : Instant) :
    OutboxRow :=
  fresh id order orderCreatedType (Payload.make order correlation).toBody now

/-- May the row be claimed at `now`? -/
def isDue (e : OutboxRow) (now : Instant) : Bool :=
  e.status = .pending ∧ e.nextAttemptAt ≤ now

/-- Was the row leased before `limit` and not settled since? -/
def isStale (e : OutboxRow) (limit : Instant) : Bool :=
  e.status = .processing ∧ ∃ t ∈ e.lockedAt, t < limit

/-- Leases the row. -/
def lease (e : OutboxRow) (now : Instant) (claimant : String) : OutboxRow :=
  { e with status := .processing, lockedAt := some now, lockedBy := some claimant }

/-- Ends the lease; the row waits again. -/
def endLease (e : OutboxRow) : OutboxRow :=
  { e with status := .pending, lockedAt := none, lockedBy := none }

/-- Settles the row as done. -/
def complete (e : OutboxRow) (now : Instant) : OutboxRow :=
  { e.endLease with status := .processed, processedAt := some now }

/-- Puts the row off until `next`. -/
def postpone (e : OutboxRow) (next : Instant) (error : String) : OutboxRow :=
  { e.endLease with
    attempts := e.attempts + 1
    nextAttemptAt := next
    lastError := some error }

/-- Settles the row as given up on. -/
def giveUp (e : OutboxRow) (now : Instant) (error : String) : OutboxRow :=
  { e.endLease with status := .failed, processedAt := some now, lastError := some error }

/-- The order in which rows are listed and claimed: oldest first, and by id
    where two are equally old. -/
def olderOrEqual (a b : OutboxRow) : Bool :=
  if a.createdAt < b.createdAt then true
  else if b.createdAt < a.createdAt then false
  else (compare a.id b.id).isLE

/-! ## As a record -/

/-- The fields of a row's record, in writing order. -/
def fieldNames : List String :=
  ["id", "aggregate_id", "event_type", "payload", "status", "attempts", "next_attempt_at",
    "created_at", "locked_at", "locked_by", "processed_at", "last_error"]

/-- Writes a row. -/
def toValue (e : OutboxRow) : Value :=
  .record [
    ("id", ofRowId e.id),
    ("aggregate_id", ofOrderId e.order),
    ("event_type", .text e.eventType),
    ("payload", .text e.payload),
    ("status", .text e.status.name),
    ("attempts", ofNat e.attempts),
    ("next_attempt_at", ofInstant e.nextAttemptAt),
    ("created_at", ofInstant e.createdAt),
    ("locked_at", .ofOption ofInstant e.lockedAt),
    ("locked_by", .ofOption .text e.lockedBy),
    ("processed_at", .ofOption ofInstant e.processedAt),
    ("last_error", .ofOption .text e.lastError)]

/-- Reads a row. -/
def ofValue? (format : Format) (v : Value) : Option OutboxRow := do
  match ← fields? fieldNames false v with
  | [id, order, eventType, payload, status, attempts, nextAttemptAt, createdAt, lockedAt,
      lockedBy, processedAt, lastError] =>
    some {
      id := ← required rowId? id
      order := ← required orderId? order
      eventType := ← required Value.text? eventType
      payload := ← required Value.text? payload
      status := ← required (Status.ofValue? format) status
      attempts := ← required counter? attempts
      nextAttemptAt := ← required instant? nextAttemptAt
      createdAt := ← required instant? createdAt
      lockedAt := ← Value.optional instant? lockedAt
      lockedBy := ← Value.optional Value.text? lockedBy
      processedAt := ← Value.optional instant? processedAt
      lastError := ← Value.optional Value.text? lastError }
  | _ => none

end OutboxRow

end OrderFlow
