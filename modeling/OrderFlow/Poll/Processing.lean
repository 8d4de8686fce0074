import OrderFlow.Operation.Process
import OrderFlow.Poll.Claim

/-! # Processing the orders of outbox rows

    Each claimed row is settled in the transaction that also changes its
    order, so that the two never disagree. -/

namespace OrderFlow

/-- Processes the orders of outbox rows. -/
structure OutboxProcessor where
  /-- How it claims rows. -/
  claimant : Claimant := { name := "worker" }
  /-- How many failed attempts an order has before it is given up on. -/
  maxRetries : Nat := 3
  /-- When a row whose order failed is due again. -/
  retry : RetryPolicy := .fixed 1000
  deriving DecidableEq

/-- What one poll did. -/
structure ProcessingReport where
  /-- Rows whose stale lease it ended. -/
  released : Nat := 0
  /-- Rows that it leased. -/
  claimed : Nat := 0
  /-- Rows settled as done. -/
  processed : Nat := 0
  /-- Rows put off. -/
  retried : Nat := 0
  /-- Rows given up on with their orders. -/
  failed : Nat := 0
  /-- Rows that could not be settled that way. -/
  errors : Nat := 0
  deriving DecidableEq

/-- The report with one more outcome counted. -/
def ProcessingReport.count (r : ProcessingReport) : Outcome → ProcessingReport
  | .processed => { r with processed := r.processed + 1 }
  | .retry => { r with retried := r.retried + 1 }
  | .failed => { r with failed := r.failed + 1 }

namespace OutboxProcessor

/-- Settles a row in transaction `t` as its order's attempt ended. -/
def settleRow (p : OutboxProcessor) (t : TxId) (e : OutboxRow) (now : Instant) :
    Outcome → StoreCall Unit
  | .processed => Store.completeRow t e.id now
  | .retry => Store.postponeRow t e.id (now.later (p.retry.delayBefore (e.attempts + 1))) "retry"
  | .failed => Store.giveUpRow t e.id now "failed"

/-- Makes an attempt on a row's order and settles the row, in one
    transaction. -/
def settle (p : OutboxProcessor) (e : OutboxRow) (now : Instant) : Call Outcome :=
  Call.transact fun t => do
    let outcome ← processIn t e.order now p.maxRetries
    Call.inStore (p.settleRow t e now outcome)
    pure outcome

/-- Gives up on a row whose order cannot be processed. -/
def giveUp (e : OutboxRow) (now : Instant) (cause : OperationError) : Call Unit :=
  Call.transact fun t => Call.inStore (Store.giveUpRow t e.id now cause.message)

/-- Settles rows one after the other.  A failure that an outage may explain
    ends the poll; the rows that are left keep their lease until it is
    stale. -/
def settleAll (p : OutboxProcessor) (now : Instant) :
    List OutboxRow → ProcessingReport → Call ProcessingReport
  | [], report => pure report
  | e :: rest, report => do
    match ← (p.settle e now).outcome with
    | .ok outcome => p.settleAll now rest (report.count outcome)
    | .error cause =>
      let report := { report with errors := report.errors + 1 }
      if cause.isLasting then
        -- If this fails too, the row keeps its lease and comes up again.
        let _ ← (giveUp e now cause).outcome
        p.settleAll now rest report
      else
        pure report

/-- One poll at the time `now`. -/
def poll (p : OutboxProcessor) (now : Instant) : Call ProcessingReport := do
  let (released, rows) ← p.claimant.claim now
  p.settleAll now rows { released := released, claimed := rows.length }

end OutboxProcessor

end OrderFlow
