import OrderFlow.Signal

/-! # Accepting orders -/

namespace OrderFlow.PublishMode

/-- Writes and announces a new order in transaction `t`; answers its id and
    the signals that are left for after the commit. -/
def stageAccept (mode : PublishMode) (t : TxId) (correlation : Option String) (now : Instant) :
    Call (OrderId × List Signal) := do
  let id : OrderId := ⟨← Call.freshId⟩
  Call.inStore (Store.writeOrder t (.fresh id now))
  let signals ← mode.announce t id correlation now
  pure (id, signals)

/-- Accepts a new order in a transaction of its own and makes it known after
    the commit. -/
def accept (mode : PublishMode) (correlation : Option String) : Call OrderId := do
  let (id, signals) ← Call.transact fun t => do
    mode.stageAccept t correlation (← Call.now)
  mode.emitAll signals
  pure id

end OrderFlow.PublishMode
