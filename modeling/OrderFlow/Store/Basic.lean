import OrderFlow.DeadLetter
import OrderFlow.Outbox.Row
import OrderFlow.Sort
import OrderFlow.Table

/-! # The store

    Three tables hold the committed rows.  Open transactions stage their
    writes apart from them, and a table of row locks says which transaction
    holds which row.  A lock belongs to its transaction until that ends.

    While the store is unavailable no transaction begins and none commits;
    open ones can go on. -/

namespace OrderFlow

/-- What a row lock is for. -/
inductive LockKey where
  /-- The row of an order. -/
  | order (id : OrderId)
  /-- A row of the outbox. -/
  | row (id : RowId)
  /-- The dead letter of an order. -/
  | deadLetter (id : OrderId)
  deriving DecidableEq

/-- The number of a transaction; numbers are never given out twice. -/
abbrev TxId := Nat

/-- An open transaction. -/
structure Transaction where
  /-- The rows whose locks it holds. -/
  held : List LockKey := []
  /-- Orders that it has written. -/
  orders : Table OrderId Order := []
  /-- Outbox rows that it has written. -/
  rows : Table RowId OutboxRow := []
  /-- Dead letters that it has written; nothing stands for one it has taken out. -/
  deadLetters : Table OrderId (Option DeadLetter) := []
  deriving DecidableEq

/-- The store. -/
structure Store where
  /-- Can transactions begin and commit? -/
  available : Bool := true
  /-- The committed orders. -/
  orders : Table OrderId Order := []
  /-- The committed outbox rows. -/
  rows : Table RowId OutboxRow := []
  /-- The committed dead letters. -/
  deadLetters : Table OrderId DeadLetter := []
  /-- Who holds which row. -/
  locks : Table LockKey TxId := []
  /-- The open transactions. -/
  opened : Table TxId Transaction := []
  /-- The number of the next transaction. -/
  nextTx : TxId := 1
  deriving DecidableEq

/-- Why a call on the store fails. -/
inductive StoreError where
  /-- A lock inside the store is beyond use. -/
  | lockPoisoned (what : String)
  /-- The outbox has no such row. -/
  | rowNotFound (id : RowId)
  /-- The store is unavailable. -/
  | unavailable (text : String)
  deriving DecidableEq

/-- The wording of a failure. -/
def StoreError.message : StoreError → String
  | .lockPoisoned what => what ++ " lock poisoned"
  | .rowNotFound id => "outbox event not found: " ++ toString id
  | .unavailable text => "store unavailable: " ++ text

namespace Store

/-- Outbox rows in listing order. -/
def sortRows (rows : List OutboxRow) : List OutboxRow :=
  sortBy OutboxRow.olderOrEqual rows

/-- Dead letters in listing order. -/
def sortLetters (letters : List DeadLetter) : List DeadLetter :=
  sortBy DeadLetter.newerOrEqual letters

/-- The committed outbox, oldest row first. -/
def listRows (s : Store) : List OutboxRow :=
  sortRows s.rows.values

/-- The committed dead letters, newest first. -/
def listLetters (s : Store) : List DeadLetter :=
  sortLetters s.deadLetters.values

/-! ## What a transaction sees -/

/-- The order as the transaction sees it. -/
def orderIn (s : Store) (tx : Transaction) (id : OrderId) : Option Order :=
  (tx.orders.find? id).or (s.orders.find? id)

/-- The outbox row as the transaction sees it. -/
def rowIn (s : Store) (tx : Transaction) (id : RowId) : Option OutboxRow :=
  (tx.rows.find? id).or (s.rows.find? id)

/-- The dead letter as the transaction sees it. -/
def letterIn (s : Store) (tx : Transaction) (id : OrderId) : Option DeadLetter :=
  match tx.deadLetters.find? id with
  | some staged => staged
  | none => s.deadLetters.find? id

/-- The outbox as the transaction sees it, oldest row first.  A committed row is
    hidden when something is staged under its id. -/
def rowsIn (s : Store) (tx : Transaction) : List OutboxRow :=
  sortRows ((s.rows.values.filter fun e => (tx.rows.find? e.id).isNone) ++ tx.rows.values)

/-- The dead letters as the transaction sees them, newest first. -/
def lettersIn (s : Store) (tx : Transaction) : List DeadLetter :=
  sortLetters ((s.deadLetters.values.filter fun d => (tx.deadLetters.find? d.order).isNone) ++
    tx.deadLetters.values.filterMap id)

/-! ## Row locks -/

/-- Can transaction `t` have the row's lock at once? -/
def lockable (s : Store) (t : TxId) (key : LockKey) : Bool :=
  match s.locks.find? key with
  | some owner => owner = t
  | none => true

/-- Gives transaction `t` the row's lock. -/
def take (s : Store) (t : TxId) (key : LockKey) : Store :=
  match s.opened.find? t with
  | none => s
  | some tx =>
    if key ∈ tx.held then s
    else
      { s with
        locks := s.locks.put key t
        opened := s.opened.put t { tx with held := key :: tx.held } }

/-- Gives transaction `t` the locks of several rows. -/
def takeAll (s : Store) (t : TxId) (keys : List LockKey) : Store :=
  keys.foldl (fun s key => s.take t key) s

/-- Ends transaction `t`: its locks are free and its writes are gone. -/
def close (s : Store) (t : TxId) : Store :=
  { s with
    locks := s.locks.filter fun e => e.2 ≠ t
    opened := s.opened.erase t }

/-- The committed tables with a transaction's writes put over them. -/
def absorb (s : Store) (tx : Transaction) : Store :=
  { s with
    orders := s.orders.putAll tx.orders
    rows := s.rows.putAll tx.rows
    deadLetters := s.deadLetters.settle tx.deadLetters }

end Store

end OrderFlow
