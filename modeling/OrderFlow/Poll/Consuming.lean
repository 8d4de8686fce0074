import OrderFlow.Operation.Process

/-! # Consuming messages from the transport

    A message is acknowledged only when its order is done.  Any other stays
    with the transport, which delivers it again and in the end puts it with
    its own dead letters. -/

namespace OrderFlow

/-- Processes the orders of messages. -/
structure MessageConsumer where
  /-- How many failed attempts an order has before it is given up on. -/
  maxRetries : Nat := 3
  /-- Milliseconds that a receive waits. -/
  waitMs : Nat := 1000
  deriving DecidableEq

/-- What one poll did. -/
inductive Reception where
  /-- Nothing came. -/
  | idle
  /-- An attempt was made on the message's order. -/
  | attempted (outcome : Outcome)
  /-- The message is no announcement. -/
  | malformed
  /-- The attempt could not be made. -/
  | errored
  deriving DecidableEq

/-- The name of an outcome. -/
def Reception.name : Reception → String
  | .idle => "Idle"
  | .attempted outcome => outcome.name
  | .malformed => "Malformed"
  | .errored => "Errored"

namespace MessageConsumer

/-- Makes an attempt on an order and acknowledges the delivery when the order
    is done.  A failed acknowledgement only means that the message comes
    again. -/
def handle (c : MessageConsumer) (d : Delivery) (id : OrderId) : Call Reception := do
  match ← (process id c.maxRetries).outcome with
  | .ok .processed =>
    let _ ← (Call.acknowledge (toString d.receipt)).outcome
    pure (.attempted .processed)
  | .ok outcome => pure (.attempted outcome)
  | .error _ => pure .errored

/-- Receives at most one message and handles it. -/
def poll (c : MessageConsumer) : Call Reception := do
  match ← Call.receive c.waitMs with
  | none => pure .idle
  | some d =>
    match Payload.ofBody? d.message.body with
    | .ok p => c.handle d p.order
    | .error _ => pure .malformed

end MessageConsumer

end OrderFlow
