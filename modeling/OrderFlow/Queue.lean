import OrderFlow.Order.Id

/-! # The queue in memory

    The ids of orders that need work, first in, first out.  A closed queue
    takes no more ids but still hands out those that it has. -/

namespace OrderFlow

/-- A queue of order ids. -/
structure Queue where
  /-- The ids, the next one first. -/
  items : List OrderId := []
  /-- Has the queue been closed? -/
  closed : Bool := false
  deriving DecidableEq

namespace Queue

/-- Adds an id at the end; a closed queue drops it. -/
def push (q : Queue) (id : OrderId) : Queue :=
  if q.closed then q else { q with items := q.items ++ [id] }

/-- Closes the queue. -/
def close (q : Queue) : Queue :=
  { q with closed := true }

/-- The next id, and the queue without it. -/
def pop? (q : Queue) : Option (OrderId × Queue) :=
  match q.items with
  | [] => none
  | id :: rest => some (id, { q with items := rest })

/-- How many ids there are. -/
def size (q : Queue) : Nat :=
  q.items.length

end Queue

end OrderFlow
