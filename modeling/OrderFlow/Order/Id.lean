import OrderFlow.Text.Blank
import OrderFlow.Uuid

/-! # Ids of orders and of outbox rows -/

namespace OrderFlow

/-- The id of an order. -/
structure OrderId where
  /-- The id without its role. -/
  uuid : Uuid
  deriving DecidableEq

/-- The id of an outbox row. -/
structure RowId where
  /-- The id without its role. -/
  uuid : Uuid
  deriving DecidableEq

instance : ToString OrderId where
  toString id := toString id.uuid

instance : ToString RowId where
  toString id := toString id.uuid

instance : Ord OrderId where
  compare a b := compare a.uuid b.uuid

instance : Ord RowId where
  compare a b := compare a.uuid b.uuid

/-- Reads an order id; blanks may stand around it. -/
def OrderId.parse? (s : String) : Option OrderId :=
  (Uuid.parse? (Text.trim s)).map OrderId.mk

end OrderFlow
