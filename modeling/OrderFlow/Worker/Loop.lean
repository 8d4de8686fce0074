import OrderFlow.Worker.Tally
import OrderFlow.Worker.Stop

/-! # Worker loops

    A worker goes round until it is asked to stop.  A round answers what the
    worker has done by then and whether the request came in one of the
    round's sleeps.

    Rounds that take no time could go on for ever, so a run has a budget of
    rounds; a run that uses it up has no outcome. -/

namespace OrderFlow

/-- A round of a worker's loop. -/
abbrev Round := StopRequest → Tally → Call (Tally × Bool)

/-- Goes round until asked to stop, but not more than `budget` times. -/
def Round.loop (round : Round) (stop : StopRequest) : Nat → Tally → Call Tally
  | 0, _ => .wait
  | budget + 1, stats => do
    if ← stop.check then
      pure stats
    else
      let (stats, stopped) ← round stop stats
      if stopped then pure stats else round.loop stop budget stats

/-- Runs a worker that is asked to stop `forMs` milliseconds from now. -/
def Round.run (round : Round) (forMs budget : Nat) : Call Tally := do
  let started ← .read fun w => w.clock.elapsed
  round.loop ⟨started, started + forMs⟩ budget {}

/-! ## The queue in memory -/

/-- Takes ids from the queue in memory. -/
structure QueueReader where
  /-- How many failed attempts an order has before it is given up on. -/
  maxRetries : Nat := 3
  /-- Milliseconds before an order goes back into the queue. -/
  retryDelayMs : Nat := 1000
  /-- Milliseconds that a look into the queue waits. -/
  pollIntervalMs : Nat := 100
  deriving DecidableEq

/-- Is there to be another attempt on the order, after an attempt that ended
    so?  An outage passes, so then there is. -/
def QueueReader.putsBack : Except OperationError Outcome → Bool
  | .ok .retry => true
  | .ok .processed | .ok .failed => false
  | .error cause => !cause.isLasting

/-- Counts an attempt. -/
def QueueReader.count (stats : Tally) : Except OperationError Outcome → Tally
  | .ok outcome => stats.addOutcome outcome
  | .error _ => stats.addError

/-- One look into the queue.  An order that needs another attempt goes back
    after a delay, at once if the worker is to stop, so that it is not lost. -/
def QueueReader.round (q : QueueReader) : Round := fun stop stats => do
  let stats := stats.addPoll
  match ← Call.popQueue (some q.pollIntervalMs) with
  | none => pure (stats, false)
  | some id =>
    let result ← (process id q.maxRetries).outcome
    let stats := QueueReader.count stats.addReceived result
    if QueueReader.putsBack result then
      let stopped ← stop.sleep q.retryDelayMs
      -- The order goes back even when the sleep was cut short.
      Call.pushQueue id
      pure (stats, stopped)
    else
      pure (stats, false)

/-! ## The outbox -/

/-- One poll of the outbox that processes orders, and a sleep. -/
def OutboxProcessor.round (p : OutboxProcessor) (intervalMs : Nat) : Round := fun stop stats => do
  let stats := stats.addPoll
  let stats := match ← (p.poll (← Call.now)).outcome with
    | .ok report => stats.addProcessing report
    | .error _ => stats.addError
  pure (stats, ← stop.sleep intervalMs)

/-- One poll of the outbox that forwards rows, and a sleep. -/
def Forwarder.round (r : Forwarder) (intervalMs : Nat) : Round := fun stop stats => do
  let stats := stats.addPoll
  let stats := match ← (r.poll (← Call.now)).outcome with
    | .ok report => stats.addForwarding report
    | .error _ => stats.addError
  pure (stats, ← stop.sleep intervalMs)

/-! ## The transport -/

/-- One poll of the transport, and a sleep if the transport fails. -/
def MessageConsumer.round (c : MessageConsumer) : Round := fun stop stats => do
  let stats := stats.addPoll
  match ← c.poll.outcome with
  | .ok outcome => pure (stats.addReception outcome, false)
  | .error _ => pure (stats.addError, ← stop.sleep c.waitMs)

end OrderFlow
