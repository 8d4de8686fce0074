import OrderFlow.Operation.Accept
import OrderFlow.Operation.Lookup
import OrderFlow.Operation.Readmit
import OrderFlow.Worker.Loop

/-! # The pipeline

    A pipeline is a configuration that has been checked, together with the
    knowledge whether there is a transport.  It offers the operations under
    the configured settings and runs the workers. -/

namespace OrderFlow

/-- A pipeline. -/
structure Pipeline where
  /-- The settings. -/
  config : Config
  /-- Has the pipeline been given a transport? -/
  hasTransport : Bool
  deriving DecidableEq

namespace Pipeline

/-- The failure of `what`, which needs a transport. -/
def needsTransport (what : String) : OperationError :=
  .config (.invalid (what ++ " needs a queue transport"))

/-- The pipeline with these settings, if they break no rule and nothing that
    they need is missing. -/
def build (config : Config) (hasTransport : Bool) : Except OperationError Pipeline :=
  match config.validate with
  | .error cause => .error (.config cause)
  | .ok () =>
    if config.publishMode = .transport ∧ !hasTransport then
      .error (needsTransport "transport publishing")
    else
      .ok ⟨config, hasTransport⟩

/-- Does the pipeline have a queue in memory? -/
def hasQueue (p : Pipeline) : Bool :=
  p.config.publishMode = .inMemory

/-- The publisher's description in messages. -/
def publisherLabel (p : Pipeline) : String :=
  "EventPublisher(" ++ p.config.publishMode.label ++ ")"

/-! ## Operations -/

/-- Accepts a new order. -/
def accept (p : Pipeline) (correlation : Option String) : Call OrderId :=
  p.config.publishMode.accept correlation

/-- Gives an order that was given up on another chance. -/
def readmit (p : Pipeline) (id : OrderId) : Call Unit :=
  p.config.publishMode.readmit id

/-- Makes one attempt on an order. -/
def process (p : Pipeline) (id : OrderId) : Call Outcome :=
  OrderFlow.process id p.config.maxRetries

/-! ## Workers -/

/-- The name of a worker: the first one's is the configured one, and the
    others are numbered from 2 on. -/
def workerName (p : Pipeline) (index : Nat) : String :=
  if index = 0 then p.config.workerId
  else p.config.workerId ++ "-" ++ Text.decimal (index + 1)

/-- How the worker `name` claims outbox rows. -/
def claimant (p : Pipeline) (name : String) : Claimant where
  name := name
  batchSize := p.config.outboxBatchSize
  lockTimeout := p.config.outboxLockTimeout

/-- The loop of the worker `name` in the given mode, if the pipeline has what
    the mode needs. -/
def round (p : Pipeline) (mode : WorkerMode) (name : String) : Except OperationError Round :=
  match mode with
  | .inMemory =>
    if p.hasQueue then
      .ok <| QueueReader.round {
        maxRetries := p.config.maxRetries
        retryDelayMs := p.config.retryDelayMs
        pollIntervalMs := p.config.queuePollIntervalMs }
    else
      .error (.config (.invalid "in-memory workers need in-memory publishing"))
  | .outboxProcessor =>
    .ok <| OutboxProcessor.round {
      claimant := p.claimant name
      maxRetries := p.config.maxRetries
      retry := p.config.outboxRetry } p.config.outboxPollIntervalMs
  | .outboxRelay =>
    if p.hasTransport then
      .ok <| Forwarder.round {
        claimant := p.claimant name
        retry := p.config.relayRetry
        maxAttempts := p.config.relayMaxAttempts } p.config.outboxPollIntervalMs
    else
      .error (needsTransport "the outbox relay")
  | .transportConsumer =>
    if p.hasTransport then
      .ok <| MessageConsumer.round {
        maxRetries := p.config.maxRetries
        waitMs := p.config.transportWaitMs }
    else
      .error (needsTransport "the transport consumer")

/-- Runs worker number `index` in the given mode for `forMs` milliseconds;
    answers its name and what it has done. -/
def runWorker (p : Pipeline) (mode : WorkerMode) (index forMs budget : Nat) :
    Call (String × Tally) := do
  let name := p.workerName index
  let round ← .ofExcept (p.round mode name)
  pure (name, ← round.run forMs budget)

end Pipeline

end OrderFlow
