import OrderFlow.Operation.Error
import OrderFlow.World

/-! # Calls

    What operations and workers are made of.  A call that fails has still
    happened; its failure is an `OperationError`. -/

namespace OrderFlow

/-- A call on the world. -/
abbrev Call := Attempt World OperationError

namespace Call

/-- The time on the wall clock. -/
def now : Call Instant :=
  .read World.now

/-- A fresh id. -/
def freshId : Call Uuid := fun w =>
  match w.ids.draw with
  | (id, ids) => some (.ok id, { w with ids := ids })

/-! ## The store -/

/-- A call on the store. -/
def inStore (m : StoreCall α) : Call α :=
  (m.onPart World.store fun s w => { w with store := s }).mapError .store

/-- Begins a transaction. -/
def start : Call TxId := do
  .modify World.nextDisturbance
  inStore Store.start

/-- Commits a transaction. -/
def commit (t : TxId) : Call Unit := do
  .modify World.nextDisturbance
  inStore (Store.commit t)

/-- Runs `body` in a transaction of its own, which commits when `body`
    answers and is abandoned when it fails. -/
def transact (body : TxId → Call α) : Call α := do
  let t ← start
  match ← (body t).outcome with
  | .ok a =>
    commit t
    pure a
  | .error e =>
    inStore (Store.abandon t)
    .fail e

/-! ## The transport -/

/-- A call on the transport. -/
def inTransport (m : TransportCall α) : Call α :=
  (m.onPart World.transport fun t w => { w with transport := t }).mapError .transport

/-- Tries to send a message; answers its id or why it was not accepted. -/
def trySend (m : Message) : Call (Except TransportError Uuid) := do
  .modify World.nextDisturbance
  .modify World.countSend
  let id ← freshId
  Attempt.outcome (.onPart World.transport (fun t w => { w with transport := t }) do
    Transport.send id m
    pure id)

/-- Sends a message and answers its id. -/
def send (m : Message) : Call Uuid := do
  .mapError .transport (.ofExcept (← trySend m))

/-- Receives one message, waiting for it up to `waitMs` milliseconds. -/
def receive (waitMs : Nat) : Call (Option Delivery) := do
  .modify World.nextDisturbance
  let receipt ← freshId
  let begun ← .read fun w => w.clock.elapsed
  let (found, ended) ← inTransport (Transport.receive receipt begun waitMs)
  .modify fun w => { w with clock := w.clock.advanceTo ended }
  pure found

/-- Acknowledges a delivery. -/
def acknowledge (receipt : String) : Call Unit := do
  .modify World.nextDisturbance
  inTransport (Transport.acknowledge receipt)

/-! ## The queue in memory -/

/-- Puts an id into the queue. -/
def pushQueue (id : OrderId) : Call Unit :=
  .modify fun w => { w with queue := w.queue.push id }

/-- Takes the next id out of the queue.  Waits for it, but not once the queue
    is closed and not longer than `limitMs` milliseconds, if there is a limit. -/
def popQueue (limitMs : Option Nat) : Call (Option OrderId) := fun w =>
  match w.queue.pop? with
  | some (id, queue) => some (.ok (some id), { w with queue := queue })
  | none =>
    if w.queue.closed then some (.ok none, w)
    else
      match limitMs with
      | some ms => some (.ok none, w.advance ms)
      | none => none

/-! ## The processor -/

/-- Calls the processor for an order; answers why it fails, if it does. -/
def callProcessor (id : OrderId) : Call (Option String) := fun w =>
  -- The reaction may depend on all the calls before.
  let r := w.processor.react w.processor.calls id
  let processor := { w.processor with calls := w.processor.calls ++ [id] }
  some (.ok r.failure, ({ w with processor := processor }.advance r.takesMs).disturb r.disturbance)

end Call

end OrderFlow
