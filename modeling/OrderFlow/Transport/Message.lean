import OrderFlow.Table
import OrderFlow.Text.Blank

/-! # Messages

    A message has a body and named attributes.  The id that correlates it
    with a request travels in an attribute of its own. -/

namespace OrderFlow

/-- A message. -/
structure Message where
  /-- What it says. -/
  body : String
  /-- What is said about it. -/
  attributes : Table String String := []
  deriving DecidableEq

namespace Message

/-- The attribute that holds the correlation id. -/
def correlationAttribute : String := "correlationId"

/-- Sets an attribute. -/
def setAttribute (m : Message) (key value : String) : Message :=
  { m with attributes := m.attributes.put key value }

/-- Sets the correlation id, if there is one. -/
def setCorrelation (m : Message) : Option String → Message
  | some c => m.setAttribute correlationAttribute c
  | none => m

/-- The correlation id as a receiver reads it; a blank one counts as absent. -/
def correlation (m : Message) : Option String :=
  (m.attributes.find? correlationAttribute).filter fun c => !Text.isBlank c

end Message

end OrderFlow
