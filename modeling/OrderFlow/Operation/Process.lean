import OrderFlow.Call

/-! # Processing orders

    One attempt on an order.  The order is locked for the whole attempt, the
    processor's call included, so of two attempts on the same order the
    second one sees what the first has done. -/

namespace OrderFlow

/-- How an attempt on an order ends. -/
inductive Outcome where
  /-- The order is done, by this attempt or an earlier one. -/
  | processed
  /-- The attempt has failed and there is to be another. -/
  | retry
  /-- The order is given up on, by this attempt or an earlier one. -/
  | failed
  deriving DecidableEq

/-- The name of an outcome. -/
def Outcome.name : Outcome → String
  | .processed => "Processed"
  | .retry => "Retry"
  | .failed => "Failed"

namespace Order

/-- Applies a transition to an order and writes it in transaction `t`. -/
def advance (t : TxId) (o : Order) (step : Transition) (now : Instant) : Call Order := do
  let o ← .mapError .transition (.ofExcept (o.apply step now))
  Call.inStore (Store.writeOrder t o)
  pure o

/-- Settles a failed attempt on `o` in transaction `t`.  The order that has
    used up `maxRetries` attempts is given up on and leaves a dead letter. -/
def settleFailure (t : TxId) (o : Order) (reason : String) (now : Instant) (maxRetries : Nat) :
    Call Outcome := do
  if o.retryCount + 1 < maxRetries then
    let _ ← o.advance t (.scheduleRetry reason) now
    pure .retry
  else
    let o ← o.advance t (.fail reason) now
    Call.inStore (Store.writeLetter t {
      order := o.id
      reason := o.failureReason.getD reasonForBlank
      retryCount := o.retryCount
      failedAt := now })
    pure .failed

/-- One attempt on a pending order in transaction `t`. -/
def tryProcessing (t : TxId) (o : Order) (now : Instant) (maxRetries : Nat) : Call Outcome := do
  let o ← o.advance t .start now
  -- Nobody else sees the order in processing: it is staged, and soon overwritten.
  match ← Call.callProcessor o.id with
  | none =>
    let _ ← o.advance t .complete now
    pure .processed
  | some reason => o.settleFailure t reason now maxRetries

end Order

/-- One attempt on an order in transaction `t`.  An order that is not
    pending is left alone, so a signal may come twice. -/
def processIn (t : TxId) (id : OrderId) (now : Instant) (maxRetries : Nat) : Call Outcome := do
  match ← Call.inStore (Store.holdOrder t id) with
  | none => Attempt.fail (.orderNotFound id)
  | some o =>
    match o.status with
    | .pending => o.tryProcessing t now maxRetries
    | .processed => pure .processed
    | .processing | .failed => pure .failed

/-- One attempt on an order in a transaction of its own. -/
def process (id : OrderId) (maxRetries : Nat) : Call Outcome :=
  Call.transact fun t => do
    processIn t id (← Call.now) maxRetries

end OrderFlow
