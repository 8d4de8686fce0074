import OrderFlow.Poll.Claim

/-! # Forwarding outbox rows to the transport

    A row's payload is sent as it is.  The send and the settlement of the row
    are two steps: a row whose settlement is lost is sent again, and a row
    is never lost. -/

namespace OrderFlow

/-- Forwards outbox rows to the transport. -/
structure Forwarder where
  /-- How it claims rows. -/
  claimant : Claimant := { name := "relay" }
  /-- When a row that could not be sent is due again. -/
  retry : RetryPolicy := .fixed 5000
  /-- How many failed sends a row has before it is given up on. -/
  maxAttempts : Option Nat := none
  deriving DecidableEq

/-- What one poll did. -/
structure ForwardingReport where
  /-- Rows whose stale lease it ended. -/
  released : Nat := 0
  /-- Rows that it leased. -/
  claimed : Nat := 0
  /-- Rows that it sent. -/
  sent : Nat := 0
  /-- Rows that it put off. -/
  rescheduled : Nat := 0
  /-- Rows that it gave up on. -/
  failed : Nat := 0
  /-- Rows that it could not settle. -/
  errors : Nat := 0
  deriving DecidableEq

/-- The message for a row: its payload, or just its order's id where the
    payload is blank. -/
def OutboxRow.toMessage (e : OutboxRow) : Message :=
  { body :=
      if Text.isBlank e.payload then
        Json.toText (.record [("orderId", Data.ofOrderId e.order)])
      else
        e.payload : Message }.setCorrelation (Payload.correlationIn e.payload)

/-- What becomes of a row after its send. -/
inductive ForwardingVerdict where
  /-- It was sent and is done. -/
  | sent
  /-- It is put off. -/
  | putOff (next : Instant) (error : String)
  /-- It is given up on. -/
  | givenUp (error : String)
  deriving DecidableEq

/-- Settles a row at the time `now`, in transaction `t`. -/
def ForwardingVerdict.settle (t : TxId) (id : RowId) (now : Instant) :
    ForwardingVerdict → StoreCall Unit
  | .sent => Store.completeRow t id now
  | .putOff next error => Store.postponeRow t id next error
  | .givenUp error => Store.giveUpRow t id now error

/-- The report with one more verdict counted. -/
def ForwardingReport.count (r : ForwardingReport) : ForwardingVerdict → ForwardingReport
  | .sent => { r with sent := r.sent + 1 }
  | .putOff _ _ => { r with rescheduled := r.rescheduled + 1 }
  | .givenUp _ => { r with failed := r.failed + 1 }

namespace Forwarder

/-- Is the row given up on when its send number `attempt` fails? -/
def isExhausted (r : Forwarder) (attempt : Nat) : Bool :=
  match r.maxAttempts with
  | none => false
  | some limit => limit ≤ attempt

/-- What becomes of a row, by the answer to its send. -/
def verdict (r : Forwarder) (e : OutboxRow) (now : Instant) :
    Except TransportError Uuid → ForwardingVerdict
  | .ok _ => .sent
  | .error cause =>
    if r.isExhausted (e.attempts + 1) then .givenUp cause.message
    else .putOff (now.later (r.retry.delayBefore (e.attempts + 1))) cause.message

/-- Sends rows one after the other and settles each in a transaction of its
    own.  A settlement that fails ends the poll; the rows that are left keep
    their lease until it is stale. -/
def relayAll (r : Forwarder) (now : Instant) :
    List OutboxRow → ForwardingReport → Call ForwardingReport
  | [], report => pure report
  | e :: rest, report => do
    let verdict := r.verdict e now (← Call.trySend e.toMessage)
    let report := report.count verdict
    match ← (Call.transact fun t => Call.inStore (verdict.settle t e.id now)).outcome with
    | .ok _ => r.relayAll now rest report
    | .error _ => pure { report with errors := report.errors + 1 }

/-- One poll at the time `now`. -/
def poll (r : Forwarder) (now : Instant) : Call ForwardingReport := do
  let (released, rows) ← r.claimant.claim now
  r.relayAll now rows { released := released, claimed := rows.length }

end Forwarder

end OrderFlow
