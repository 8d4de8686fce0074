import OrderFlow.Data.Fields

/-! # Modes

    How new work is announced, and which loop a worker runs.  A worker mode
    and a publish mode fit together when the loop picks up what the
    publisher puts down.  A relay only forwards outbox rows; whoever
    consumes the messages runs elsewhere, with transport publishing. -/

namespace OrderFlow

open Data

/-- How new work is announced. -/
inductive PublishMode where
  /-- The order's id goes into the queue in memory, after the commit. -/
  | inMemory
  /-- A row goes into the outbox, in the same commit as the order. -/
  | outbox
  /-- A message goes to the transport, after the commit. -/
  | transport
  deriving DecidableEq

/-- Which loop a worker runs. -/
inductive WorkerMode where
  /-- Takes ids from the queue in memory. -/
  | inMemory
  /-- Claims outbox rows and processes their orders. -/
  | outboxProcessor
  /-- Claims outbox rows and sends them on to the transport. -/
  | outboxRelay
  /-- Receives messages from the transport and processes their orders. -/
  | transportConsumer
  deriving DecidableEq

namespace PublishMode

/-- The name in records. -/
def name : PublishMode → String
  | .inMemory => "in-memory"
  | .outbox => "outbox"
  | .transport => "transport"

/-- The name in messages. -/
def label : PublishMode → String
  | .inMemory => "InMemory"
  | .outbox => "Outbox"
  | .transport => "Transport"

/-- Every mode under its name. -/
def choices : List (String × PublishMode) :=
  [inMemory, outbox, transport].map fun m => (m.name, m)

/-- Reads a mode. -/
def ofValue? (format : Format) (v : Value) : Option PublishMode :=
  choice? format choices v

end PublishMode

namespace WorkerMode

/-- The name in records. -/
def name : WorkerMode → String
  | .inMemory => "in-memory"
  | .outboxProcessor => "outbox-processor"
  | .outboxRelay => "outbox-relay"
  | .transportConsumer => "transport-consumer"

/-- The name in messages. -/
def label : WorkerMode → String
  | .inMemory => "InMemory"
  | .outboxProcessor => "OutboxProcessor"
  | .outboxRelay => "OutboxRelay"
  | .transportConsumer => "TransportConsumer"

/-- Every mode under its name. -/
def choices : List (String × WorkerMode) :=
  [inMemory, outboxProcessor, outboxRelay, transportConsumer].map fun m => (m.name, m)

/-- Reads a mode. -/
def ofValue? (format : Format) (v : Value) : Option WorkerMode :=
  choice? format choices v

/-- Does the loop pick up what the publisher puts down? -/
def consumes : WorkerMode → PublishMode → Bool
  | .inMemory, .inMemory => true
  | .outboxProcessor, .outbox => true
  | .outboxRelay, .outbox => true
  | .transportConsumer, .transport => true
  | _, _ => false

end WorkerMode

end OrderFlow
