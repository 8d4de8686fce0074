import OrderFlow.Call
import OrderFlow.Config.Mode

/-! # Announcing orders

    Where the announcement of an order goes depends on the publish mode.  An
    outbox row is written in the order's own transaction.  The queue in
    memory and the transport must not hear of an order that is not
    committed, so for them announcing yields a signal, and the signal is
    emitted after the commit. -/

namespace OrderFlow

/-- That an order needs work, to be made known once it is committed. -/
structure Signal where
  /-- The order. -/
  order : OrderId
  /-- The id of the request behind it. -/
  correlation : Option String
  deriving DecidableEq

/-- The signal as a message.  The attribute holds the correlation id as it
    was given, the body as announcements keep it. -/
def Signal.toMessage (s : Signal) : Message :=
  { body := (Payload.make s.order s.correlation).toBody : Message }.setCorrelation s.correlation

namespace PublishMode

/-- Announces an order in transaction `t`; answers the signals that are left
    for after the commit. -/
def announce (mode : PublishMode) (t : TxId) (order : OrderId) (correlation : Option String)
    (now : Instant) : Call (List Signal) :=
  match mode with
  | .outbox => do
    let id ← Call.freshId
    Call.inStore (Store.writeRow t (.announcing ⟨id⟩ order correlation now))
    pure []
  | .inMemory | .transport => pure [⟨order, correlation⟩]

/-- Makes a signal known. -/
def emit (mode : PublishMode) (s : Signal) : Call Unit :=
  match mode with
  | .inMemory => Call.pushQueue s.order
  | .transport => do
    let _ ← Call.send s.toMessage
    pure ()
  | .outbox => pure ()

/-- Makes signals of committed orders known, one after the other.  The first
    that cannot be is the last that is tried. -/
def emitAll (mode : PublishMode) : List Signal → Call Unit
  | [] => pure ()
  | s :: rest => do
    (mode.emit s).mapError (.unannounced s.order)
    mode.emitAll rest

/-- Commits transaction `t` and then makes its signals known. -/
def commitThenEmit (mode : PublishMode) (t : TxId) (signals : List Signal) : Call Unit := do
  Call.commit t
  mode.emitAll signals

end PublishMode

end OrderFlow
