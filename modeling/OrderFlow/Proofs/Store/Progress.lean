import OrderFlow.Proofs.Attempt
import OrderFlow.Proofs.Table
import OrderFlow.Store.Call

/-! # How an open transaction gets on

    While a transaction is open, only its own entry among the open
    transactions and the table of row locks change: it takes free locks,
    gives none back, and stages writes (`Progress`).

    Most calls on the store have one shape: take the lock of one row, wait
    if somebody else has it, and then answer from what the transaction sees
    (`underLock`).  What follows from the shape is proved here once. -/

namespace OrderFlow

namespace Transaction

/-- The transaction with the lock of one more row. -/
def hold (tx : Transaction) (key : LockKey) : Transaction :=
  if key ∈ tx.held then tx else { tx with held := key :: tx.held }

theorem mem_held_hold {tx : Transaction} {key k : LockKey} :
    k ∈ (tx.hold key).held ↔ k = key ∨ k ∈ tx.held := by
  unfold hold
  split
  · next h =>
    constructor
    · exact Or.inr
    · rintro (rfl | hk)
      · exact h
      · exact hk
  · simp

theorem mem_held_self {tx : Transaction} {key : LockKey} : key ∈ (tx.hold key).held :=
  mem_held_hold.mpr (Or.inl rfl)

theorem mem_held_of_mem {tx : Transaction} {key k : LockKey} (h : k ∈ tx.held) :
    k ∈ (tx.hold key).held :=
  mem_held_hold.mpr (Or.inr h)

@[simp] theorem hold_orders (tx : Transaction) (key : LockKey) :
    (tx.hold key).orders = tx.orders := by
  unfold hold; split <;> rfl

@[simp] theorem hold_rows (tx : Transaction) (key : LockKey) : (tx.hold key).rows = tx.rows := by
  unfold hold; split <;> rfl

@[simp] theorem hold_deadLetters (tx : Transaction) (key : LockKey) :
    (tx.hold key).deadLetters = tx.deadLetters := by
  unfold hold; split <;> rfl

theorem hold_of_mem {tx : Transaction} {key : LockKey} (h : key ∈ tx.held) : tx.hold key = tx := by
  unfold hold
  rw [if_pos h]

/-- The transaction with one more order written. -/
def putOrder (tx : Transaction) (o : Order) : Transaction :=
  { tx with orders := tx.orders.put o.id o }

/-- The transaction with one more outbox row written. -/
def putRow (tx : Transaction) (id : RowId) (e : OutboxRow) : Transaction :=
  { tx with rows := tx.rows.put id e }

/-- The transaction with several more outbox rows written. -/
def putRows (tx : Transaction) (rows : Table RowId OutboxRow) : Transaction :=
  { tx with rows := tx.rows.putAll rows }

/-- The transaction with one more dead letter written or taken out. -/
def putLetter (tx : Transaction) (id : OrderId) (d : Option DeadLetter) : Transaction :=
  { tx with deadLetters := tx.deadLetters.put id d }

/-- Writes take no locks. -/
@[simp] theorem held_putOrder (tx : Transaction) (o : Order) : (tx.putOrder o).held = tx.held :=
  rfl

@[simp] theorem held_putRow (tx : Transaction) (id : RowId) (e : OutboxRow) :
    (tx.putRow id e).held = tx.held := rfl

@[simp] theorem held_putLetter (tx : Transaction) (id : OrderId) (d : Option DeadLetter) :
    (tx.putLetter id d).held = tx.held := rfl

end Transaction

namespace Store

/-- The store in which the open transaction `t` has become `tx`. -/
def update (s : Store) (t : TxId) (tx : Transaction) : Store :=
  { s with opened := s.opened.put t tx }

theorem lockable_iff {s : Store} {t : TxId} {k : LockKey} :
    s.lockable t k = true ↔ ∀ u, s.locks.find? k = some u → u = t := by
  unfold lockable
  cases s.locks.find? k <;> simp

/-- **Progress of one transaction**: between `s` and `s'` only the open
    transaction `t` has changed, from `tx` to `tx'`.  It has taken locks that
    were free and given none back. -/
structure Progress (t : TxId) (s : Store) (tx : Transaction) (s' : Store) (tx' : Transaction) :
    Prop where
  orders : s'.orders = s.orders
  rows : s'.rows = s.rows
  deadLetters : s'.deadLetters = s.deadLetters
  nextTx : s'.nextTx = s.nextTx
  before : s.opened.find? t = some tx
  after : s'.opened.find? t = some tx'
  others : ∀ {u}, u ≠ t → s'.opened.find? u = s.opened.find? u
  keeps : ∀ {k}, k ∈ tx.held → k ∈ tx'.held
  free : ∀ {k}, k ∈ tx'.held → k ∉ tx.held → s.lockable t k = true
  taken : ∀ {k}, k ∈ tx'.held → k ∉ tx.held → s'.locks.find? k = some t
  untouched : ∀ {k}, k ∈ tx.held ∨ k ∉ tx'.held → s'.locks.find? k = s.locks.find? k
  distinct : s.locks.Distinct → s'.locks.Distinct

section progress
variable {t : TxId} {s s' s'' : Store} {tx tx' tx'' : Transaction}

theorem Progress.refl (h : s.opened.find? t = some tx) : Progress t s tx s tx where
  orders := rfl
  rows := rfl
  deadLetters := rfl
  nextTx := rfl
  before := h
  after := h
  others _ := rfl
  keeps hk := hk
  free hk hn := absurd hk hn
  taken hk hn := absurd hk hn
  untouched _ := rfl
  distinct hd := hd

/-- Whether the store is available is nobody's progress. -/
theorem progress_setAvailable (h : s.opened.find? t = some tx) (b : Bool) :
    Progress t s tx { s with available := b } tx :=
  { Progress.refl h with }

/-- There is only one transaction under a number. -/
theorem Progress.tx_eq (h : Progress t s tx s' tx') (hopen : s.opened.find? t = some tx'') :
    tx = tx'' := by
  have hbefore := h.before
  rw [hopen, Option.some.injEq] at hbefore
  exact hbefore.symm

/-- Which locks can be had does not depend on what the transaction itself has taken. -/
theorem Progress.lockable_eq (hp : Progress t s tx s' tx') (key : LockKey) :
    s'.lockable t key = s.lockable t key := by
  by_cases hnew : key ∈ tx'.held ∧ key ∉ tx.held
  · rw [hp.free hnew.1 hnew.2, lockable_iff, hp.taken hnew.1 hnew.2]
    simp
  · unfold lockable
    rw [hp.untouched (by grind)]

theorem Progress.trans (h₁ : Progress t s tx s' tx') (h₂ : Progress t s' tx' s'' tx'') :
    Progress t s tx s'' tx'' where
  orders := h₂.orders.trans h₁.orders
  rows := h₂.rows.trans h₁.rows
  deadLetters := h₂.deadLetters.trans h₁.deadLetters
  nextTx := h₂.nextTx.trans h₁.nextTx
  before := h₁.before
  after := h₂.after
  others hu := (h₂.others hu).trans (h₁.others hu)
  keeps hk := h₂.keeps (h₁.keeps hk)
  free := by
    intro k hk hn
    -- Taken in the first part or in the second, which the first has not touched.
    by_cases hk' : k ∈ tx'.held
    · exact h₁.free hk' hn
    · have hfree := h₂.free hk hk'
      rw [lockable_iff] at hfree ⊢
      rwa [h₁.untouched (Or.inr hk')] at hfree
  taken := by
    intro k hk hn
    by_cases hk' : k ∈ tx'.held
    · rw [h₂.untouched (Or.inl hk')]
      exact h₁.taken hk' hn
    · exact h₂.taken hk hk'
  untouched := by
    rintro k (hk | hk)
    · rw [h₂.untouched (Or.inl (h₁.keeps hk)), h₁.untouched (Or.inl hk)]
    · rw [h₂.untouched (Or.inr hk), h₁.untouched (Or.inr fun hk' => hk (h₂.keeps hk'))]
  distinct hd := h₂.distinct (h₁.distinct hd)

/-- Staging writes needs no lock. -/
theorem progress_update (h : s.opened.find? t = some tx) (held : tx'.held = tx.held) :
    Progress t s tx (s.update t tx') tx' where
  orders := rfl
  rows := rfl
  deadLetters := rfl
  nextTx := rfl
  before := h
  after := by simp [update]
  others := by
    intro u hu
    simp [update, Ne.symm hu]
  keeps hk := held ▸ hk
  free hk hn := absurd (held ▸ hk) hn
  taken hk hn := absurd (held ▸ hk) hn
  untouched _ := rfl
  distinct hd := hd

theorem take_of_mem {key : LockKey} (h : s.opened.find? t = some tx) (hk : key ∈ tx.held) :
    s.take t key = s := by
  unfold take
  rw [h]
  exact if_pos hk

theorem progress_take {key : LockKey} (h : s.opened.find? t = some tx)
    (hfree : s.lockable t key = true) : Progress t s tx (s.take t key) (tx.hold key) := by
  -- A lock that the transaction has already is not taken again.
  by_cases hk : key ∈ tx.held
  · rw [take_of_mem h hk, Transaction.hold_of_mem hk]
    exact Progress.refl h
  · have hs : s.take t key = { s with
        locks := s.locks.put key t
        opened := s.opened.put t (tx.hold key) } := by
      simp [take, h, hk, Transaction.hold]
    rw [hs]
    refine ⟨rfl, rfl, rfl, rfl, h, by simp, ?_, ?_, ?_, ?_, ?_, fun hd => hd.put key t⟩
    · intro u hu
      simp [Ne.symm hu]
    · intro k hk'
      exact Transaction.mem_held_of_mem hk'
    · intro k hk' hn
      rcases Transaction.mem_held_hold.mp hk' with rfl | hk'
      · exact hfree
      · exact absurd hk' hn
    · intro k hk' hn
      rcases Transaction.mem_held_hold.mp hk' with rfl | hk'
      · simp
      · exact absurd hk' hn
    · intro k hk'
      -- Only the lock of `key` changes hands, and that is neither an old one nor left free.
      have hne : key ≠ k := by
        rintro rfl
        rcases hk' with hk' | hk'
        · exact hk hk'
        · exact hk' Transaction.mem_held_self
      simp [hne]

end progress

/-! ## Calls under the lock of one row -/

/-- Takes the lock of one row, waiting while another transaction has it, and
    then answers and stages as `act` says. -/
def underLock {α : Type} (t : TxId) (key : LockKey)
    (act : Store → Transaction → Except StoreError α × Transaction) : StoreCall α := fun s =>
  match s.opened.find? t with
  | none => none
  | some tx =>
    if s.lockable t key then
      some ((act s (tx.hold key)).1, (s.take t key).update t (act s (tx.hold key)).2)
    else
      none

section underLock
variable {t : TxId} {s s' : Store} {tx : Transaction}

theorem underLock_eq_some {α : Type} {key : LockKey}
    {act : Store → Transaction → Except StoreError α × Transaction} {r : Except StoreError α}
    (held : ∀ s tx, (act s tx).2.held = tx.held) (h : underLock t key act s = some (r, s')) :
    ∃ tx, r = (act s (tx.hold key)).1 ∧
      Progress t s tx s' (act s (tx.hold key)).2 := by
  unfold underLock at h
  cases htx : s.opened.find? t with
  | none =>
    rw [htx] at h
    cases h
  | some tx =>
    simp only [htx] at h
    split at h
    · next hfree =>
      cases h
      -- First the lock and then the answer, which takes no other.
      have htake := progress_take htx hfree
      exact ⟨tx, rfl, htake.trans (progress_update htake.after (held s _))⟩
    · cases h

/-- What a transaction sees of a row does not depend on its locks. -/
theorem orderIn_take (htx : s.opened.find? t = some tx) (key : LockKey) (id : OrderId) :
    (s.take t key).orderIn (tx.hold key) id = s.orderIn tx id := by
  by_cases hk : key ∈ tx.held
  · rw [take_of_mem htx hk, Transaction.hold_of_mem hk]
  · simp [orderIn, take, htx, hk]

theorem rowIn_take (htx : s.opened.find? t = some tx) (key : LockKey) (id : RowId) :
    (s.take t key).rowIn (tx.hold key) id = s.rowIn tx id := by
  by_cases hk : key ∈ tx.held
  · rw [take_of_mem htx hk, Transaction.hold_of_mem hk]
  · simp [rowIn, take, htx, hk]

theorem letterIn_take (htx : s.opened.find? t = some tx) (key : LockKey) (id : OrderId) :
    (s.take t key).letterIn (tx.hold key) id = s.letterIn tx id := by
  by_cases hk : key ∈ tx.held
  · rw [take_of_mem htx hk, Transaction.hold_of_mem hk]
  · simp [letterIn, take, htx, hk]

/-- A transaction that has taken a lock is still open. -/
theorem opened_take (htx : s.opened.find? t = some tx) (key : LockKey) :
    (s.take t key).opened.find? t = some (tx.hold key) := by
  by_cases hk : key ∈ tx.held
  · rw [take_of_mem htx hk, Transaction.hold_of_mem hk, htx]
  · simp [take, htx, hk, Transaction.hold]

theorem update_of_opened (h : s.opened.find? t = some tx) : s.update t tx = s := by
  unfold update
  rw [Table.put_of_find? h]

end underLock

end Store

end OrderFlow
