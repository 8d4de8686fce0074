import OrderFlow.Call

/-! # Looking things up

    Each look-up is a transaction of its own. -/

namespace OrderFlow

/-- The order with an id. -/
def lookUpOrder (id : OrderId) : Call (Option Order) :=
  Call.transact fun t => Call.inStore (Store.readOrder t id)

/-- The newest dead letters, as many as the limit allows. -/
def lookUpDeadLetters (limit : Nat) : Call (List DeadLetter) :=
  Call.transact fun t => Call.inStore (Store.latestLetters t limit)

/-- The outbox rows still owed work. -/
def lookUpBacklog : Call Backlog :=
  Call.transact fun t => Call.inStore (Store.countBacklog t)

end OrderFlow
