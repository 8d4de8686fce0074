import OrderFlow.Call

/-! # Claiming outbox rows

    A worker that looks into the outbox first frees the rows whose lease is
    stale and then leases the oldest rows that are due. -/

namespace OrderFlow

/-- How a worker claims outbox rows. -/
structure Claimant where
  /-- The name on its leases. -/
  name : String
  /-- How many rows it takes at once. -/
  batchSize : Nat := 5
  /-- How old a lease is when it is stale. -/
  lockTimeout : Duration := .ofSeconds 30
  deriving DecidableEq

namespace Claimant

/-- Frees the rows whose lease is stale at `now`; answers how many. -/
def release (c : Claimant) (now : Instant) : Call Nat :=
  Call.transact fun t => Call.inStore (Store.endStaleLeases t (now.earlier c.lockTimeout))

/-- Leases rows in transaction `t`. -/
def leaseAll (c : Claimant) (t : TxId) (now : Instant) : List OutboxRow → StoreCall Unit
  | [] => pure ()
  | e :: rest => do
    Store.leaseRow t e.id now c.name
    c.leaseAll t now rest

/-- Leases the oldest rows that are due at `now`; answers them as they were
    before. -/
def lease (c : Claimant) (now : Instant) : Call (List OutboxRow) :=
  Call.transact fun t => Call.inStore do
    let rows ← Store.claimDue t c.batchSize now
    -- In the same transaction, so no row is locked and left without a lease.
    c.leaseAll t now rows
    pure rows

/-- Frees stale rows and leases due ones, in two transactions; answers how
    many were freed, and the leased rows as they were before. -/
def claim (c : Claimant) (now : Instant) : Call (Nat × List OutboxRow) := do
  let released ← c.release now
  let rows ← c.lease now
  pure (released, rows)

end Claimant

end OrderFlow
