import OrderFlow.Data.Fields

/-! # Status

    Orders and outbox rows go through the same four stages. -/

namespace OrderFlow

/-- The stage of a piece of work. -/
inductive Status where
  /-- Waiting to be picked up. -/
  | pending
  /-- In somebody's hands. -/
  | processing
  /-- Done. -/
  | processed
  /-- Given up on. -/
  | failed
  deriving DecidableEq

namespace Status

/-- The name that texts and records use. -/
def name : Status → String
  | .pending => "PENDING"
  | .processing => "PROCESSING"
  | .processed => "PROCESSED"
  | .failed => "FAILED"

instance : ToString Status where
  toString := name

/-- Every stage under its name. -/
def choices : List (String × Status) :=
  [Status.pending, .processing, .processed, .failed].map fun s => (s.name, s)

/-- Is nothing more going to happen without an operator? -/
def isSettled : Status → Bool
  | .processed | .failed => true
  | .pending | .processing => false

end Status

end OrderFlow
