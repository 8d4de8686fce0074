import OrderFlow.Poll.Consuming
import OrderFlow.Poll.Processing
import OrderFlow.Poll.Forwarding

/-! # What a worker has done -/

namespace OrderFlow

/-- Counts of what a worker has done since it was started. -/
structure Tally where
  /-- Rounds of its loop. -/
  polls : Nat := 0
  /-- Pieces of work that it got. -/
  received : Nat := 0
  /-- Orders that are done. -/
  processed : Nat := 0
  /-- Attempts that are to be repeated. -/
  retried : Nat := 0
  /-- Orders or rows given up on. -/
  failed : Nat := 0
  /-- Rows sent to the transport. -/
  relayed : Nat := 0
  /-- Rows whose stale lease it ended. -/
  releasedStale : Nat := 0
  /-- Messages that were no announcements. -/
  malformed : Nat := 0
  /-- Failures of the store, the transport, or with missing orders. -/
  errors : Nat := 0
  deriving DecidableEq

namespace Tally

/-- One more round. -/
def addPoll (s : Tally) : Tally :=
  { s with polls := s.polls + 1 }

/-- One more failure. -/
def addError (s : Tally) : Tally :=
  { s with errors := s.errors + 1 }

/-- One more piece of work. -/
def addReceived (s : Tally) : Tally :=
  { s with received := s.received + 1 }

/-- One more attempt that ended with the outcome. -/
def addOutcome (s : Tally) : Outcome → Tally
  | .processed => { s with processed := s.processed + 1 }
  | .retry => { s with retried := s.retried + 1 }
  | .failed => { s with failed := s.failed + 1 }

/-- One more poll that processed orders of outbox rows. -/
def addProcessing (s : Tally) (r : ProcessingReport) : Tally :=
  { s with
    releasedStale := s.releasedStale + r.released
    received := s.received + r.claimed
    processed := s.processed + r.processed
    retried := s.retried + r.retried
    failed := s.failed + r.failed
    errors := s.errors + r.errors }

/-- One more poll that forwarded outbox rows. -/
def addForwarding (s : Tally) (r : ForwardingReport) : Tally :=
  { s with
    releasedStale := s.releasedStale + r.released
    received := s.received + r.claimed
    relayed := s.relayed + r.sent
    retried := s.retried + r.rescheduled
    failed := s.failed + r.failed
    errors := s.errors + r.errors }

/-- One more poll of the transport. -/
def addReception (s : Tally) : Reception → Tally
  | .idle => s
  | .attempted outcome => s.addReceived.addOutcome outcome
  | .malformed => { s.addReceived with malformed := s.malformed + 1 }
  | .errored => s.addReceived.addError

end Tally

end OrderFlow
