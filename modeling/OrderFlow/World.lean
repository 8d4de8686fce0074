import OrderFlow.Clock
import OrderFlow.Processor
import OrderFlow.Queue
import OrderFlow.Store.Call
import OrderFlow.Transport.Basic

/-! # The world of a pipeline

    Everything that operations and workers act on.

    Others may make the store or the transport available or unavailable at
    any point.  A pipeline notices that only when it calls one of them, so
    it is enough to say what happens just before each of those calls. -/

namespace OrderFlow

/-- The world of a pipeline. -/
structure World where
  /-- The clock. -/
  clock : Clock := {}
  /-- The store. -/
  store : Store := {}
  /-- The transport. -/
  transport : Transport := {}
  /-- The queue in memory. -/
  queue : Queue := {}
  /-- The order processor. -/
  processor : Processor := {}
  /-- Where fresh ids come from. -/
  ids : IdSupply := ⟨0⟩
  /-- What others do just before each of the next calls that the store or the
      transport may refuse. -/
  disturbances : List Disturbance := []
  /-- Counts messages down: the store goes down while the last of so many is
      sent; 0 for no such outage. -/
  sendsToOutage : Nat := 0

namespace World

/-- The time on the wall clock. -/
def now (w : World) : Instant :=
  w.clock.now

/-- The world `ms` milliseconds later. -/
def advance (w : World) (ms : Nat) : World :=
  { w with clock := w.clock.advance ms }

/-- The world with the store made available or unavailable. -/
def setStoreAvailable (w : World) (value : Bool) : World :=
  { w with store := { w.store with available := value } }

/-- The world with the transport made available or unavailable. -/
def setTransportAvailable (w : World) (value : Bool) : World :=
  { w with transport := { w.transport with available := value } }

/-- The world after others have changed what is available. -/
def disturb (w : World) (d : Disturbance) : World :=
  { w with
    store := { w.store with available := d.store.getD w.store.available }
    transport := { w.transport with available := d.transport.getD w.transport.available } }

/-- The world in which the next disturbance has happened. -/
def nextDisturbance (w : World) : World :=
  match w.disturbances with
  | [] => w
  | d :: rest => { w.disturb d with disturbances := rest }

/-- The world in which one more message has been counted down. -/
def countSend (w : World) : World :=
  if w.sendsToOutage = 1 then { w.setStoreAvailable false with sendsToOutage := 0 }
  else { w with sendsToOutage := w.sendsToOutage - 1 }

end World

end OrderFlow
