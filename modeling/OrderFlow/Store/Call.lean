import OrderFlow.Attempt
import OrderFlow.Store.Basic

/-! # Calls on the store

    Every call names the transaction that it belongs to.  A write first takes
    the lock of its row and waits while another transaction holds it;
    claims and the release of stale leases pass over rows that others hold.

    A call in the name of a transaction that is not open does nothing, like
    one that waits. -/

namespace OrderFlow

/-- A call on the store. -/
abbrev StoreCall := Attempt Store StoreError

namespace Store

/-- The failure while the store is unavailable. -/
def offline : StoreError := .unavailable "in-memory store is offline"

/-- Begins a transaction. -/
def start : StoreCall TxId := fun s =>
  if s.available then
    some (.ok s.nextTx,
      { s with opened := s.opened.put s.nextTx {}, nextTx := s.nextTx + 1 })
  else
    some (.error offline, s)

/-- What the open transaction `t` sees of the store. -/
def readView (t : TxId) (f : Store → Transaction → α) : StoreCall α := fun s =>
  match s.opened.find? t with
  | none => none
  | some tx => some (.ok (f s tx), s)

/-- Changes what transaction `t` has staged. -/
def stageWrite (t : TxId) (f : Transaction → Transaction) : StoreCall Unit := fun s =>
  match s.opened.find? t with
  | none => none
  | some tx => some (.ok (), { s with opened := s.opened.put t (f tx) })

/-- Takes a row's lock for transaction `t`; waits while another has it. -/
def takeLock (t : TxId) (key : LockKey) : StoreCall Unit := fun s =>
  match s.opened.find? t with
  | none => none
  | some _ => if s.lockable t key then some (.ok (), s.take t key) else none

/-! ## Orders -/

/-- Writes an order. -/
def writeOrder (t : TxId) (o : Order) : StoreCall Unit := do
  takeLock t (.order o.id)
  stageWrite t fun tx => { tx with orders := tx.orders.put o.id o }

/-- The order, without a lock. -/
def readOrder (t : TxId) (id : OrderId) : StoreCall (Option Order) :=
  readView t fun s tx => s.orderIn tx id

/-- The order, with its lock until the transaction ends. -/
def holdOrder (t : TxId) (id : OrderId) : StoreCall (Option Order) := do
  takeLock t (.order id)
  readOrder t id

/-! ## Outbox rows -/

/-- Writes an outbox row. -/
def writeRow (t : TxId) (e : OutboxRow) : StoreCall Unit := do
  takeLock t (.row e.id)
  stageWrite t fun tx => { tx with rows := tx.rows.put e.id e }

/-- The outbox row. -/
def readRow (t : TxId) (id : RowId) : StoreCall (Option OutboxRow) :=
  readView t fun s tx => s.rowIn tx id

/-- Changes an outbox row.  The row's lock is taken even when there is no row. -/
def changeRow (t : TxId) (id : RowId) (f : OutboxRow → OutboxRow) : StoreCall Unit := do
  takeLock t (.row id)
  match ← readRow t id with
  | none => Attempt.fail (.rowNotFound id)
  | some e => stageWrite t fun tx => { tx with rows := tx.rows.put id (f e) }

/-- The rows with the property that the transaction sees and can lock at
    once, oldest first. -/
def lockableRows (s : Store) (t : TxId) (tx : Transaction) (p : OutboxRow → Bool) :
    List OutboxRow :=
  (s.rowsIn tx).filter fun e => p e && s.lockable t (.row e.id)

/-- Takes the locks of up to `limit` rows that are due at `now`, oldest
    first, and answers the rows. -/
def claimDue (t : TxId) (limit : Nat) (now : Instant) : StoreCall (List OutboxRow) := fun s =>
  match s.opened.find? t with
  | none => none
  | some tx =>
    let claimed := (s.lockableRows t tx fun e => e.isDue now).take limit
    some (.ok claimed, s.takeAll t (claimed.map fun e => .row e.id))

/-- Leases a row. -/
def leaseRow (t : TxId) (id : RowId) (now : Instant) (claimant : String) :
    StoreCall Unit :=
  changeRow t id fun e => e.lease now claimant

/-- Settles a row as done. -/
def completeRow (t : TxId) (id : RowId) (now : Instant) : StoreCall Unit :=
  changeRow t id fun e => e.complete now

/-- Puts a row off. -/
def postponeRow (t : TxId) (id : RowId) (next : Instant) (error : String) : StoreCall Unit :=
  changeRow t id fun e => e.postpone next error

/-- Settles a row as given up on. -/
def giveUpRow (t : TxId) (id : RowId) (now : Instant) (error : String) : StoreCall Unit :=
  changeRow t id fun e => e.giveUp now error

/-- Ends the leases from before `limit` and answers how many there were. -/
def endStaleLeases (t : TxId) (limit : Instant) : StoreCall Nat := fun s =>
  match s.opened.find? t with
  | none => none
  | some tx =>
    let stale := s.lockableRows t tx fun e => e.isStale limit
    let s := s.takeAll t (stale.map fun e => .row e.id)
    match s.opened.find? t with
    | none => none
    | some tx =>
      -- `tx` is the transaction as it is now, with the new locks.
      let rows := tx.rows.putAll (stale.map fun e => (e.id, e.endLease))
      some (.ok stale.length, { s with opened := s.opened.put t { tx with rows := rows } })

/-- Counts the rows still owed work. -/
def countBacklog (t : TxId) : StoreCall Backlog :=
  readView t fun s tx =>
    let rows := s.rowsIn tx
    ⟨rows.countP (·.status = .pending), rows.countP (·.status = .processing)⟩

/-! ## Dead letters -/

/-- Writes a dead letter over the order's former one. -/
def writeLetter (t : TxId) (d : DeadLetter) : StoreCall Unit := do
  takeLock t (.deadLetter d.order)
  stageWrite t fun tx => { tx with deadLetters := tx.deadLetters.put d.order (some d) }

/-- The dead letter of an order, without a lock. -/
def readLetter (t : TxId) (id : OrderId) : StoreCall (Option DeadLetter) :=
  readView t fun s tx => s.letterIn tx id

/-- Takes the dead letter of an order out; was there one? -/
def dropLetter (t : TxId) (id : OrderId) : StoreCall Bool := do
  takeLock t (.deadLetter id)
  let found ← readLetter t id
  -- Staged even when there is none.
  stageWrite t fun tx => { tx with deadLetters := tx.deadLetters.put id none }
  pure found.isSome

/-- All dead letters, newest first. -/
def allLetters (t : TxId) : StoreCall (List DeadLetter) :=
  readView t fun s tx => s.lettersIn tx

/-- The newest dead letters, as many as the limit allows. -/
def latestLetters (t : TxId) (limit : Nat) : StoreCall (List DeadLetter) :=
  readView t fun s tx => (s.lettersIn tx).take (DeadLetter.clampLimit limit)

/-! ## The end of a transaction -/

/-- Commits transaction `t`.  The transaction ends in any case, also when
    the store is unavailable and nothing is written. -/
def commit (t : TxId) : StoreCall Unit := fun s =>
  match s.opened.find? t with
  | none => none
  | some tx =>
    if s.available then some (.ok (), (s.absorb tx).close t) else some (.error offline, s.close t)

/-- Ends transaction `t` without writing anything. -/
def abandon (t : TxId) : StoreCall Unit := fun s =>
  match s.opened.find? t with
  | none => none
  | some _ => some (.ok (), s.close t)

end Store

end OrderFlow
