import OrderFlow.Signal

/-! # Giving orders another chance

    An order that was given up on goes back to the start when an operator
    asks for it: its dead letter is taken out, and it is announced again.
    It keeps its count of failed attempts. -/

namespace OrderFlow.PublishMode

/-- The reason that stands on an order that was put back. -/
def readmitReason : String := "manual reprocess"

/-- Puts an order back in transaction `t`; answers the signals that are left
    for after the commit.  The dead letter is looked up before the order is
    locked and taken out after, since another readmission may have been
    faster. -/
def stageReadmit (mode : PublishMode) (t : TxId) (id : OrderId) (now : Instant) :
    Call (List Signal) := do
  if (← Call.inStore (Store.readLetter t id)).isNone then
    Attempt.fail (.deadLetterNotFound id)
  else
    match ← Call.inStore (Store.holdOrder t id) with
    | none => Attempt.fail (.orderNotFound id)
    | some o =>
      -- Under the lock by now; the letter that was seen above may be gone.
      if ← Call.inStore (Store.dropLetter t id) then
        let o ← .mapError .transition (.ofExcept (o.apply (.reset readmitReason) now))
        Call.inStore (Store.writeOrder t o)
        mode.announce t id none now
      else
        Attempt.fail (.deadLetterNotFound id)

/-- Puts an order back in a transaction of its own and makes it known after
    the commit. -/
def readmit (mode : PublishMode) (id : OrderId) : Call Unit := do
  let signals ← Call.transact fun t => do
    mode.stageReadmit t id (← Call.now)
  mode.emitAll signals

end OrderFlow.PublishMode
