import OrderFlow.Proofs.Store.Orderly

/-! # What transactions see

    A transaction sees the committed tables and what it has staged over
    them.  The committed tables alone are what a transaction sees that has
    only just begun, so a property of views, asked of every transaction
    that is open or may begin (`Current`), speaks about them as well.

    A commit changes the view of another open transaction only at the rows
    whose lock that one does not hold; there it then sees what the
    committing transaction saw. -/

namespace OrderFlow.Store

variable {t u : TxId} {s s' : Store} {tx tx' other : Transaction}

/-- A transaction that is open, or one that may begin now. -/
def Current (s : Store) (tx : Transaction) : Prop :=
  tx = {} ∨ ∃ t, s.opened.find? t = some tx

theorem current_empty (s : Store) : s.Current {} :=
  Or.inl rfl

theorem current_opened (h : s.opened.find? t = some tx) : s.Current tx :=
  Or.inr ⟨t, h⟩

/-- A transaction that begins is one that could. -/
theorem current_start (h : Current s.begun tx) : s.Current tx := by
  obtain rfl | ⟨u, hu⟩ := h
  · exact s.current_empty
  · rw [opened_begun] at hu
    split at hu
    · cases hu
      exact s.current_empty
    · exact current_opened hu

/-- The transactions that stay open when one ends. -/
theorem opened_of_close (h : (s.close t).opened.find? u = some tx) :
    u ≠ t ∧ s.opened.find? u = some tx := by
  rw [opened_close] at h
  split at h
  · cases h
  · next hut => exact ⟨Ne.symm hut, h⟩

theorem current_close (h : (s.close t).Current tx) : s.Current tx := by
  obtain rfl | ⟨u, hu⟩ := h
  · exact s.current_empty
  · exact current_opened (opened_of_close hu).2

/-! ## The same committed tables -/

/-- Two stores have the same committed tables. -/
structure SameTables (s s' : Store) : Prop where
  orders : s.orders = s'.orders
  rows : s.rows = s'.rows
  deadLetters : s.deadLetters = s'.deadLetters

theorem SameTables.symm (h : SameTables s s') : SameTables s' s :=
  ⟨h.orders.symm, h.rows.symm, h.deadLetters.symm⟩

theorem SameTables.trans {s'' : Store} (h : SameTables s s') (h' : SameTables s' s'') :
    SameTables s s'' :=
  ⟨h.orders.trans h'.orders, h.rows.trans h'.rows, h.deadLetters.trans h'.deadLetters⟩

theorem Progress.sameTables (hp : Progress t s tx s' tx') : SameTables s s' :=
  ⟨hp.orders.symm, hp.rows.symm, hp.deadLetters.symm⟩

theorem sameTables_close (s : Store) (t : TxId) : SameTables s (s.close t) :=
  ⟨rfl, rfl, rfl⟩

theorem SameTables.absorb (h : SameTables s s') (tx : Transaction) :
    SameTables (s.absorb tx) (s'.absorb tx) where
  orders := by simp only [Store.absorb, h.orders]
  rows := by simp only [Store.absorb, h.rows]
  deadLetters := by simp only [Store.absorb, h.deadLetters]

theorem SameTables.orderIn (h : SameTables s s') (tx : Transaction) (id : OrderId) :
    s.orderIn tx id = s'.orderIn tx id := by
  unfold Store.orderIn
  rw [h.orders]

theorem SameTables.rowIn (h : SameTables s s') (tx : Transaction) (id : RowId) :
    s.rowIn tx id = s'.rowIn tx id := by
  unfold Store.rowIn
  rw [h.rows]

theorem SameTables.letterIn (h : SameTables s s') (tx : Transaction) (id : OrderId) :
    s.letterIn tx id = s'.letterIn tx id := by
  unfold Store.letterIn
  rw [h.deadLetters]

/-! ## Views after a write

    What a transaction sees of a row depends on nothing that it has staged
    elsewhere. -/

theorem orderIn_congr {id : OrderId} (h : tx'.orders.find? id = tx.orders.find? id) :
    s.orderIn tx' id = s.orderIn tx id := by
  unfold orderIn
  rw [h]

theorem rowIn_congr {id : RowId} (h : tx'.rows.find? id = tx.rows.find? id) :
    s.rowIn tx' id = s.rowIn tx id := by
  unfold rowIn
  rw [h]

theorem letterIn_congr {id : OrderId} (h : tx'.deadLetters.find? id = tx.deadLetters.find? id) :
    s.letterIn tx' id = s.letterIn tx id := by
  unfold letterIn
  rw [h]

/-- Of a row that it has not staged a transaction sees what is committed. -/
theorem orderIn_of_unstaged {id : OrderId} (h : tx.orders.find? id = none) (s : Store) :
    s.orderIn tx id = s.orders.find? id := by
  unfold orderIn
  rw [h, Option.none_or]

theorem rowIn_of_unstaged {id : RowId} (h : tx.rows.find? id = none) (s : Store) :
    s.rowIn tx id = s.rows.find? id := by
  unfold rowIn
  rw [h, Option.none_or]

theorem letterIn_of_unstaged {id : OrderId} (h : tx.deadLetters.find? id = none) (s : Store) :
    s.letterIn tx id = s.deadLetters.find? id := by
  unfold letterIn
  rw [h]

theorem orderIn_of_committed {id : OrderId} {o : Order} (h : s.orders.find? id = some o)
    (tx : Transaction) : ∃ o', s.orderIn tx id = some o' := by
  unfold orderIn
  rw [h]
  cases tx.orders.find? id <;> exact ⟨_, rfl⟩

@[simp] theorem orderIn_empty (s : Store) (id : OrderId) : s.orderIn {} id = s.orders.find? id :=
  rfl

@[simp] theorem rowIn_empty (s : Store) (id : RowId) : s.rowIn {} id = s.rows.find? id :=
  rfl

@[simp] theorem letterIn_empty (s : Store) (id : OrderId) :
    s.letterIn {} id = s.deadLetters.find? id :=
  rfl

@[simp] theorem orderIn_putOrder (s : Store) (tx : Transaction) (o : Order) (id : OrderId) :
    s.orderIn (tx.putOrder o) id = if o.id = id then some o else s.orderIn tx id := by
  unfold orderIn Transaction.putOrder
  rw [Table.find?_put]
  split <;> rfl

@[simp] theorem orderIn_putRow (s : Store) (tx : Transaction) (k : RowId) (e : OutboxRow)
    (id : OrderId) : s.orderIn (tx.putRow k e) id = s.orderIn tx id := rfl

@[simp] theorem orderIn_putLetter (s : Store) (tx : Transaction) (k : OrderId)
    (d : Option DeadLetter) (id : OrderId) : s.orderIn (tx.putLetter k d) id = s.orderIn tx id :=
  rfl

@[simp] theorem rowIn_putOrder (s : Store) (tx : Transaction) (o : Order) (id : RowId) :
    s.rowIn (tx.putOrder o) id = s.rowIn tx id := rfl

@[simp] theorem rowIn_putRow (s : Store) (tx : Transaction) (k : RowId) (e : OutboxRow)
    (id : RowId) : s.rowIn (tx.putRow k e) id = if k = id then some e else s.rowIn tx id := by
  unfold rowIn Transaction.putRow
  rw [Table.find?_put]
  split <;> rfl

@[simp] theorem rowIn_putLetter (s : Store) (tx : Transaction) (k : OrderId)
    (d : Option DeadLetter) (id : RowId) : s.rowIn (tx.putLetter k d) id = s.rowIn tx id := rfl

@[simp] theorem letterIn_putOrder (s : Store) (tx : Transaction) (o : Order) (id : OrderId) :
    s.letterIn (tx.putOrder o) id = s.letterIn tx id := rfl

@[simp] theorem letterIn_putRow (s : Store) (tx : Transaction) (k : RowId) (e : OutboxRow)
    (id : OrderId) : s.letterIn (tx.putRow k e) id = s.letterIn tx id := rfl

@[simp] theorem letterIn_putLetter (s : Store) (tx : Transaction) (k : OrderId)
    (d : Option DeadLetter) (id : OrderId) :
    s.letterIn (tx.putLetter k d) id = if k = id then d else s.letterIn tx id := by
  unfold letterIn Transaction.putLetter
  rw [Table.find?_put]
  by_cases hk : k = id <;> simp [hk]

/-! ## Views after a commit -/

/-- What a transaction that begins after a commit sees. -/
theorem orderIn_absorb_empty (h : tx.Orderly) (s : Store) (id : OrderId) :
    (s.absorb tx).orderIn {} id = s.orderIn tx id :=
  orders_absorb h s id

theorem rowIn_absorb_empty (h : tx.Orderly) (s : Store) (id : RowId) :
    (s.absorb tx).rowIn {} id = s.rowIn tx id :=
  rows_absorb h s id

theorem letterIn_absorb_empty (h : tx.Orderly) (s : Store) (id : OrderId) :
    (s.absorb tx).letterIn {} id = s.letterIn tx id :=
  deadLetters_absorb h s id

/-- What another transaction sees of an order after a commit. -/
theorem Orderly.orderIn_absorb (h : s.Orderly) (htx : s.opened.find? t = some tx)
    (hu : s.opened.find? u = some other) (hne : u ≠ t) (id : OrderId) :
    (LockKey.order id ∈ other.held ∧ s.orderIn tx id = s.orders.find? id ∧
        (s.absorb tx).orders.find? id = s.orders.find? id ∧
        (s.absorb tx).orderIn other id = s.orderIn other id) ∨
      (LockKey.order id ∉ other.held ∧ s.orderIn other id = s.orders.find? id ∧
        (s.absorb tx).orderIn other id = s.orderIn tx id) := by
  have habsorb := orders_absorb (h.each htx) s id
  by_cases hk : LockKey.order id ∈ other.held
  · -- The lock is with the other transaction, so the commit has not touched the order.
    have hview := orderIn_of_unstaged ((h.each htx).order_unstaged (h.not_held htx hu hne hk)) s
    refine Or.inl ⟨hk, hview, habsorb.trans hview, ?_⟩
    unfold orderIn
    rw [habsorb, hview]
  · -- Without the lock it has staged nothing of its own over what is committed now.
    have hnone := (h.each hu).order_unstaged hk
    exact Or.inr ⟨hk, orderIn_of_unstaged hnone s, (orderIn_of_unstaged hnone _).trans habsorb⟩

/-- What another transaction sees of an outbox row after a commit. -/
theorem Orderly.rowIn_absorb (h : s.Orderly) (htx : s.opened.find? t = some tx)
    (hu : s.opened.find? u = some other) (hne : u ≠ t) (id : RowId) :
    (LockKey.row id ∈ other.held ∧ s.rowIn tx id = s.rows.find? id ∧
        (s.absorb tx).rows.find? id = s.rows.find? id ∧
        (s.absorb tx).rowIn other id = s.rowIn other id) ∨
      (LockKey.row id ∉ other.held ∧ s.rowIn other id = s.rows.find? id ∧
        (s.absorb tx).rowIn other id = s.rowIn tx id) := by
  have habsorb := rows_absorb (h.each htx) s id
  by_cases hk : LockKey.row id ∈ other.held
  · have hview := rowIn_of_unstaged ((h.each htx).row_unstaged (h.not_held htx hu hne hk)) s
    refine Or.inl ⟨hk, hview, habsorb.trans hview, ?_⟩
    unfold rowIn
    rw [habsorb, hview]
  · have hnone := (h.each hu).row_unstaged hk
    exact Or.inr ⟨hk, rowIn_of_unstaged hnone s, (rowIn_of_unstaged hnone _).trans habsorb⟩

end OrderFlow.Store
