import OrderFlow.Config.Basic
import OrderFlow.Store.Basic
import OrderFlow.Transport.Basic

/-! # Failures of operations -/

namespace OrderFlow

/-- Why an operation of the pipeline fails. -/
inductive OperationError where
  /-- There is no such order. -/
  | orderNotFound (id : OrderId)
  /-- The order has no dead letter. -/
  | deadLetterNotFound (id : OrderId)
  /-- The order's status does not allow the operation. -/
  | transition (cause : TransitionError)
  /-- The store has failed. -/
  | store (cause : StoreError)
  /-- The transport has failed. -/
  | transport (cause : TransportError)
  /-- A message is no announcement of an order. -/
  | malformedMessage (cause : PayloadError)
  /-- The order is committed but was not announced. -/
  | unannounced (order : OrderId) (cause : OperationError)
  /-- The configuration does not allow the operation. -/
  | config (cause : ConfigError)
  deriving DecidableEq

namespace OperationError

/-- The wording of a failure. -/
def message : OperationError → String
  | .orderNotFound id => "Order not found: " ++ toString id
  | .deadLetterNotFound id => "DLQ entry not found: " ++ toString id
  | .transition cause => cause.message
  | .store cause => "store error: " ++ cause.message
  | .transport cause => "transport error: " ++ cause.message
  | .malformedMessage cause => "malformed message: " ++ cause.message
  | .unannounced order cause =>
    "order " ++ toString order ++ " committed but publishing failed: " ++ cause.message
  | .config cause => "configuration error: " ++ cause.message

/-- Is trying again bound to fail?  Missing and inconsistent data stay as
    they are, while an outage passes. -/
def isLasting : OperationError → Bool
  | .orderNotFound _ | .deadLetterNotFound _ | .transition _ | .malformedMessage _ => true
  | .store _ | .transport _ | .unannounced _ _ | .config _ => false

end OperationError

end OrderFlow
