import OrderFlow.Order.Id
import OrderFlow.Status
import OrderFlow.Time.Instant

/-! # Orders

    An order changes only through the five transitions.  Each starts from
    one status and is refused from any other:

        PENDING    -- start          --> PROCESSING
        PROCESSING -- complete       --> PROCESSED
        PROCESSING -- fail           --> FAILED
        PROCESSING -- schedule retry --> PENDING
        FAILED     -- reset          --> PENDING

    The two failures count the attempt; a reset keeps the count.  The time
    of the last change never goes back, whatever the clock says. -/

namespace OrderFlow

/-- An order. -/
structure Order where
  /-- Its id. -/
  id : OrderId
  /-- Its stage. -/
  status : Status
  /-- When it was accepted. -/
  createdAt : Instant
  /-- When it last changed. -/
  updatedAt : Instant
  /-- How many attempts on it have failed.  The number stands for a 32-bit counter, so it is
      below `2 ^ 32`, as records demand. -/
  retryCount : Nat
  /-- Why the last attempt failed, or why it was put back. -/
  failureReason : Option String
  deriving DecidableEq

/-- A change of an order. -/
inductive Transition where
  /-- An attempt begins. -/
  | start
  /-- The attempt has succeeded. -/
  | complete
  /-- The attempt has failed and there will be no other. -/
  | fail (reason : String)
  /-- The attempt has failed and there will be another. -/
  | scheduleRetry (reason : String)
  /-- An operator gives the order another chance. -/
  | reset (reason : String)
  deriving DecidableEq

namespace Transition

/-- The status that the transition starts from. -/
def source : Transition → Status
  | .start => .pending
  | .complete | .fail _ | .scheduleRetry _ => .processing
  | .reset _ => .failed

/-- What the transition does to an order, as refusals put it. -/
def verb : Transition → String
  | .start => "start processing"
  | .complete => "complete"
  | .fail _ => "fail"
  | .scheduleRetry _ => "schedule a retry for"
  | .reset _ => "reset"

end Transition

/-- A transition was asked for from a status that does not allow it. -/
structure TransitionError where
  /-- The order. -/
  order : OrderId
  /-- What the transition would have done. -/
  verb : String
  /-- The status of the order. -/
  source : Status
  deriving DecidableEq

/-- The wording of a refusal. -/
def TransitionError.message (e : TransitionError) : String :=
  "cannot " ++ e.verb ++ " order " ++ toString e.order ++ " while it is " ++ e.source.name

/-- The reason that stands for a blank one. -/
def reasonForBlank : String := "unknown"

/-- A failure's reason as an order keeps it: trimmed and never blank. -/
def tidyReason (reason : String) : String :=
  (Text.nonBlank reason).getD reasonForBlank

namespace Order

/-- A fresh order. -/
def fresh (id : OrderId) (now : Instant) : Order where
  id := id
  status := .pending
  createdAt := now
  updatedAt := now
  retryCount := 0
  failureReason := none

/-- An order as it was kept elsewhere; it cannot have changed before it was
    created. -/
def ofStored (id : OrderId) (status : Status) (createdAt updatedAt : Instant) (retryCount : Nat)
    (failureReason : Option String) : Order where
  id := id
  status := status
  createdAt := createdAt
  updatedAt := max updatedAt createdAt
  retryCount := retryCount
  failureReason := failureReason

/-- The order after a transition from the right status. -/
def moved (o : Order) (now : Instant) : Transition → Order
  | .start =>
    { o with status := .processing, failureReason := none, updatedAt := max o.updatedAt now }
  | .complete =>
    { o with status := .processed, updatedAt := max o.updatedAt now }
  | .fail reason =>
    { o with
      status := .failed
      retryCount := o.retryCount + 1
      failureReason := some (tidyReason reason)
      updatedAt := max o.updatedAt now }
  | .scheduleRetry reason =>
    { o with
      status := .pending
      retryCount := o.retryCount + 1
      failureReason := some (tidyReason reason)
      updatedAt := max o.updatedAt now }
  | .reset reason =>
    { o with status := .pending, failureReason := some reason, updatedAt := max o.updatedAt now }

/-- Applies a transition at the time `now`. -/
def apply (o : Order) (t : Transition) (now : Instant) : Except TransitionError Order :=
  if o.status = t.source then .ok (o.moved now t) else .error ⟨o.id, t.verb, o.status⟩

end Order

end OrderFlow
