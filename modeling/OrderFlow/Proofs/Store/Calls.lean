import OrderFlow.Proofs.Store.Progress

/-! # What each call on the store does

    One lemma a call.  The calls that lock one row are instances of
    `underLock`; claims and the release of stale leases lock several rows
    at once, all of them free.  No later proof opens a call again. -/

namespace OrderFlow.Store

variable {t : TxId} {s s' : Store} {tx tx' : Transaction}

/-! ## Locks that are not seen -/

@[simp] theorem orderIn_hold (s : Store) (tx : Transaction) (key : LockKey) (id : OrderId) :
    s.orderIn (tx.hold key) id = s.orderIn tx id := by
  simp [orderIn]

@[simp] theorem rowIn_hold (s : Store) (tx : Transaction) (key : LockKey) (id : RowId) :
    s.rowIn (tx.hold key) id = s.rowIn tx id := by
  simp [rowIn]

@[simp] theorem letterIn_hold (s : Store) (tx : Transaction) (key : LockKey) (id : OrderId) :
    s.letterIn (tx.hold key) id = s.letterIn tx id := by
  simp [letterIn]

/-! ## Calls that lock one row -/

/-- The shared shape: a lock, and then an answer of the open transaction. -/
theorem takeLock_bind {α : Type} {key : LockKey} {m : Unit → StoreCall α}
    {act : Store → Transaction → Except StoreError α × Transaction}
    (hm : ∀ s tx, s.opened.find? t = some tx → m () (s.take t key) =
      some ((act s (tx.hold key)).1, (s.take t key).update t (act s (tx.hold key)).2)) :
    (takeLock t key >>= m) = underLock t key act := by
  funext s
  rw [Attempt.bind_apply]
  unfold takeLock underLock
  cases htx : s.opened.find? t with
  | none => rfl
  | some tx =>
    by_cases hfree : s.lockable t key = true
    · simpa only [hfree, if_true] using hm s tx htx
    · simp only [hfree, Bool.false_eq_true, if_false]

theorem stageWrite_take (htx : s.opened.find? t = some tx) (key : LockKey)
    (f : Transaction → Transaction) :
    stageWrite t f (s.take t key) =
      some (.ok (), (s.take t key).update t (f (tx.hold key))) := by
  unfold stageWrite
  rw [opened_take htx key]
  rfl

theorem readView_take {α : Type} (htx : s.opened.find? t = some tx) (key : LockKey)
    (f : Store → Transaction → α) :
    readView t f (s.take t key) = some (.ok (f (s.take t key) (tx.hold key)), s.take t key) := by
  unfold readView
  rw [opened_take htx key]

theorem writeOrder_eq (t : TxId) (o : Order) :
    writeOrder t o = underLock t (.order o.id) fun _ tx =>
      (.ok (), { tx with orders := tx.orders.put o.id o }) :=
  takeLock_bind fun _ _ htx => stageWrite_take htx _ _

theorem holdOrder_eq (t : TxId) (id : OrderId) :
    holdOrder t id = underLock t (.order id) fun s tx => (.ok (s.orderIn tx id), tx) := by
  refine takeLock_bind fun s tx htx => ?_
  unfold readOrder
  rw [readView_take htx, orderIn_take htx, update_of_opened (opened_take htx _), orderIn_hold]

theorem writeRow_eq (t : TxId) (e : OutboxRow) :
    writeRow t e = underLock t (.row e.id) fun _ tx =>
      (.ok (), { tx with rows := tx.rows.put e.id e }) :=
  takeLock_bind fun _ _ htx => stageWrite_take htx _ _

theorem changeRow_eq (t : TxId) (id : RowId) (f : OutboxRow → OutboxRow) :
    changeRow t id f = underLock t (.row id) fun s tx =>
      match s.rowIn tx id with
      | none => (.error (.rowNotFound id), tx)
      | some e => (.ok (), { tx with rows := tx.rows.put id (f e) }) := by
  refine takeLock_bind fun s tx htx => ?_
  rw [Attempt.bind_apply]
  unfold readRow
  rw [readView_take htx, rowIn_take htx, rowIn_hold]
  cases s.rowIn tx id with
  | none =>
    dsimp only
    rw [update_of_opened (opened_take htx _)]
    rfl
  | some e => exact stageWrite_take htx _ _

theorem writeLetter_eq (t : TxId) (d : DeadLetter) :
    writeLetter t d = underLock t (.deadLetter d.order) fun _ tx =>
      (.ok (), { tx with deadLetters := tx.deadLetters.put d.order (some d) }) :=
  takeLock_bind fun _ _ htx => stageWrite_take htx _ _

theorem dropLetter_eq (t : TxId) (id : OrderId) :
    dropLetter t id = underLock t (.deadLetter id) fun s tx =>
      (.ok (s.letterIn tx id).isSome, { tx with deadLetters := tx.deadLetters.put id none }) := by
  refine takeLock_bind fun s tx htx => ?_
  rw [Attempt.bind_apply]
  unfold readLetter
  rw [readView_take htx, letterIn_take htx, letterIn_hold]
  dsimp only
  rw [Attempt.bind_apply, stageWrite_take htx]
  rfl

/-! ## The answers, read backwards -/

theorem readView_eq_some {α : Type} {f : Store → Transaction → α} {r : Except StoreError α}
    (h : readView t f s = some (r, s')) :
    ∃ tx, s.opened.find? t = some tx ∧ r = .ok (f s tx) ∧ s' = s := by
  unfold readView at h
  cases htx : s.opened.find? t with
  | none =>
    rw [htx] at h
    cases h
  | some tx =>
    rw [htx] at h
    cases h
    exact ⟨tx, rfl, rfl, rfl⟩

theorem writeOrder_eq_some {o : Order} {r : Except StoreError Unit}
    (h : writeOrder t o s = some (r, s')) :
    ∃ tx, r = .ok () ∧ Progress t s tx s' ((tx.hold (.order o.id)).putOrder o) := by
  rw [writeOrder_eq] at h
  exact underLock_eq_some (fun _ _ => rfl) h

theorem holdOrder_eq_some {id : OrderId} {r : Except StoreError (Option Order)}
    (h : holdOrder t id s = some (r, s')) :
    ∃ tx, r = .ok (s.orderIn tx id) ∧ Progress t s tx s' (tx.hold (.order id)) := by
  rw [holdOrder_eq] at h
  obtain ⟨tx, hr, hp⟩ := underLock_eq_some (fun _ _ => rfl) h
  exact ⟨tx, by simpa using hr, hp⟩

theorem writeRow_eq_some {e : OutboxRow} {r : Except StoreError Unit}
    (h : writeRow t e s = some (r, s')) :
    ∃ tx, r = .ok () ∧ Progress t s tx s' ((tx.hold (.row e.id)).putRow e.id e) := by
  rw [writeRow_eq] at h
  exact underLock_eq_some (fun _ _ => rfl) h

/-- A change of a row that is not there leaves the lock behind and nothing
    else. -/
theorem changeRow_eq_some {id : RowId} {f : OutboxRow → OutboxRow} {r : Except StoreError Unit}
    (h : changeRow t id f s = some (r, s')) :
    ∃ tx, (s.rowIn tx id = none ∧ r = .error (.rowNotFound id) ∧
        Progress t s tx s' (tx.hold (.row id))) ∨
      (∃ e, s.rowIn tx id = some e ∧ r = .ok () ∧
        Progress t s tx s' ((tx.hold (.row id)).putRow id (f e))) := by
  rw [changeRow_eq] at h
  obtain ⟨tx, hr, hp⟩ := underLock_eq_some (by intro s tx; split <;> rfl) h
  refine ⟨tx, ?_⟩
  rw [rowIn_hold] at hr hp
  cases hrow : s.rowIn tx id with
  | none =>
    rw [hrow] at hr hp
    exact Or.inl ⟨rfl, hr, hp⟩
  | some e =>
    rw [hrow] at hr hp
    exact Or.inr ⟨e, rfl, hr, hp⟩

theorem writeLetter_eq_some {d : DeadLetter} {r : Except StoreError Unit}
    (h : writeLetter t d s = some (r, s')) :
    ∃ tx, r = .ok () ∧ Progress t s tx s'
      ((tx.hold (.deadLetter d.order)).putLetter d.order (some d)) := by
  rw [writeLetter_eq] at h
  exact underLock_eq_some (fun _ _ => rfl) h

theorem dropLetter_eq_some {id : OrderId} {r : Except StoreError Bool}
    (h : dropLetter t id s = some (r, s')) :
    ∃ tx, r = .ok (s.letterIn tx id).isSome ∧ Progress t s tx s'
      ((tx.hold (.deadLetter id)).putLetter id none) := by
  rw [dropLetter_eq] at h
  obtain ⟨tx, hr, hp⟩ := underLock_eq_some (fun _ _ => rfl) h
  exact ⟨tx, by simpa using hr, hp⟩

/-! ## Calls that never fail

    A change of a row may find no row, and the begin and the end of a
    transaction may find the store unavailable.  Nothing else fails. -/

theorem answers_readView {α : Type} (t : TxId) (f : Store → Transaction → α) :
    (readView t f).Answers := by
  intro s r s' h
  obtain ⟨tx, -, hr, -⟩ := readView_eq_some h
  exact ⟨_, hr⟩

theorem answers_writeOrder (t : TxId) (o : Order) : (writeOrder t o).Answers := by
  intro s r s' h
  obtain ⟨tx, hr, -⟩ := writeOrder_eq_some h
  exact ⟨_, hr⟩

theorem answers_holdOrder (t : TxId) (id : OrderId) : (holdOrder t id).Answers := by
  intro s r s' h
  obtain ⟨tx, hr, -⟩ := holdOrder_eq_some h
  exact ⟨_, hr⟩

theorem answers_writeRow (t : TxId) (e : OutboxRow) : (writeRow t e).Answers := by
  intro s r s' h
  obtain ⟨tx, hr, -⟩ := writeRow_eq_some h
  exact ⟨_, hr⟩

theorem answers_writeLetter (t : TxId) (d : DeadLetter) : (writeLetter t d).Answers := by
  intro s r s' h
  obtain ⟨tx, hr, -⟩ := writeLetter_eq_some h
  exact ⟨_, hr⟩

theorem answers_dropLetter (t : TxId) (id : OrderId) : (dropLetter t id).Answers := by
  intro s r s' h
  obtain ⟨tx, hr, -⟩ := dropLetter_eq_some h
  exact ⟨_, hr⟩

/-! ## Calls that lock several rows -/

theorem progress_takeAll {keys : List LockKey} (htx : s.opened.find? t = some tx)
    (hfree : ∀ k ∈ keys, s.lockable t k = true) :
    Progress t s tx (s.takeAll t keys) (keys.foldl Transaction.hold tx) := by
  unfold takeAll
  induction keys generalizing s tx with
  | nil => exact Progress.refl htx
  | cons key rest ih =>
    have hp := progress_take htx (hfree key List.mem_cons_self)
    refine hp.trans (ih hp.after ?_)
    intro k hk
    have hk := hfree k (List.mem_cons_of_mem _ hk)
    rw [lockable_iff] at hk ⊢
    -- The lock of `key` is now its own, and those of the other keys are still free.
    by_cases hnew : k ∈ (tx.hold key).held ∧ k ∉ tx.held
    · intro u hu
      rw [hp.taken hnew.1 hnew.2, Option.some.injEq] at hu
      exact hu.symm
    · rwa [hp.untouched (by grind)]

@[simp] theorem foldl_hold_orders (keys : List LockKey) (tx : Transaction) :
    (keys.foldl Transaction.hold tx).orders = tx.orders := by
  induction keys generalizing tx with
  | nil => rfl
  | cons key rest ih => rw [List.foldl_cons, ih, Transaction.hold_orders]

@[simp] theorem foldl_hold_rows (keys : List LockKey) (tx : Transaction) :
    (keys.foldl Transaction.hold tx).rows = tx.rows := by
  induction keys generalizing tx with
  | nil => rfl
  | cons key rest ih => rw [List.foldl_cons, ih, Transaction.hold_rows]

@[simp] theorem foldl_hold_deadLetters (keys : List LockKey) (tx : Transaction) :
    (keys.foldl Transaction.hold tx).deadLetters = tx.deadLetters := by
  induction keys generalizing tx with
  | nil => rfl
  | cons key rest ih => rw [List.foldl_cons, ih, Transaction.hold_deadLetters]

theorem mem_held_foldl_hold {keys : List LockKey} {tx : Transaction} {k : LockKey} :
    k ∈ (keys.foldl Transaction.hold tx).held ↔ k ∈ keys ∨ k ∈ tx.held := by
  induction keys generalizing tx with
  | nil => simp
  | cons key rest ih =>
    rw [List.foldl_cons, ih, Transaction.mem_held_hold, List.mem_cons]
    constructor
    · rintro (h | h | h)
      · exact Or.inl (Or.inr h)
      · exact Or.inl (Or.inl h)
      · exact Or.inr h
    · rintro ((h | h) | h)
      · exact Or.inr (Or.inl h)
      · exact Or.inl h
      · exact Or.inr (Or.inr h)

/-- The locks of rows as a list of keys. -/
def rowKeys (rows : List OutboxRow) : List LockKey :=
  rows.map fun e => .row e.id

theorem mem_lockableRows {p : OutboxRow → Bool} {e : OutboxRow} :
    e ∈ s.lockableRows t tx p ↔
      e ∈ s.rowsIn tx ∧ p e = true ∧ s.lockable t (.row e.id) = true := by
  simp [lockableRows]

theorem claimDue_eq_some {limit : Nat} {now : Instant} {r : Except StoreError (List OutboxRow)}
    (h : claimDue t limit now s = some (r, s')) :
    ∃ tx rows, r = .ok rows ∧
      (∀ e ∈ rows, e ∈ s.rowsIn tx ∧ e.isDue now = true ∧ s.lockable t (.row e.id) = true) ∧
      Progress t s tx s' ((rowKeys rows).foldl Transaction.hold tx) := by
  unfold claimDue at h
  cases htx : s.opened.find? t with
  | none =>
    rw [htx] at h
    cases h
  | some tx =>
    rw [htx] at h
    cases h
    have hmem : ∀ e ∈ (s.lockableRows t tx fun e => e.isDue now).take limit,
        e ∈ s.rowsIn tx ∧ e.isDue now = true ∧ s.lockable t (.row e.id) = true :=
      fun e he => mem_lockableRows.mp (List.mem_of_mem_take he)
    refine ⟨tx, _, rfl, hmem, progress_takeAll htx ?_⟩
    intro k hk
    obtain ⟨e, he, rfl⟩ := List.mem_map.mp hk
    exact (hmem e he).2.2

theorem endStaleLeases_eq_some {limit : Instant} {r : Except StoreError Nat}
    (h : endStaleLeases t limit s = some (r, s')) :
    ∃ tx rows, r = .ok rows.length ∧ rows = s.lockableRows t tx (fun e => e.isStale limit) ∧
      Progress t s tx s'
        (((rowKeys rows).foldl Transaction.hold tx).putRows
          (rows.map fun e => (e.id, e.endLease))) := by
  unfold endStaleLeases at h
  cases htx : s.opened.find? t with
  | none =>
    rw [htx] at h
    cases h
  | some tx =>
    simp only [htx] at h
    have hp : Progress t s tx
        (s.takeAll t (rowKeys (s.lockableRows t tx fun e => e.isStale limit)))
        ((rowKeys (s.lockableRows t tx fun e => e.isStale limit)).foldl Transaction.hold tx) :=
      progress_takeAll htx fun k hk => by
        obtain ⟨e, he, rfl⟩ := List.mem_map.mp hk
        exact (mem_lockableRows.mp he).2.2
    -- The call looks its transaction up once more, after the locks.
    have hafter := hp.after
    unfold rowKeys at hafter
    rw [hafter] at h
    cases h
    refine ⟨tx, _, rfl, rfl, hp.trans ?_⟩
    exact progress_update hp.after rfl

/-! ## Begin and end -/

/-- The store in which one more transaction has begun. -/
def begun (s : Store) : Store :=
  { s with opened := s.opened.put s.nextTx {}, nextTx := s.nextTx + 1 }

theorem opened_begun (s : Store) (t : TxId) :
    s.begun.opened.find? t = if s.nextTx = t then some {} else s.opened.find? t :=
  Table.find?_put _ _ _ _

theorem start_eq_some {r : Except StoreError TxId} (h : start s = some (r, s')) :
    (r = .ok s.nextTx ∧ s.available = true ∧ s' = s.begun) ∨
    (r = .error offline ∧ s.available = false ∧ s' = s) := by
  unfold start at h
  split at h
  · next ha =>
    cases h
    exact Or.inl ⟨rfl, ha, rfl⟩
  · next ha =>
    cases h
    exact Or.inr ⟨rfl, by simpa using ha, rfl⟩

theorem commit_eq_some {r : Except StoreError Unit} (h : commit t s = some (r, s')) :
    ∃ tx, s.opened.find? t = some tx ∧
      ((r = .ok () ∧ s.available = true ∧ s' = (s.absorb tx).close t) ∨
        (r = .error offline ∧ s.available = false ∧ s' = s.close t)) := by
  unfold commit at h
  cases htx : s.opened.find? t with
  | none =>
    rw [htx] at h
    cases h
  | some tx =>
    simp only [htx] at h
    refine ⟨tx, rfl, ?_⟩
    split at h
    · next ha =>
      cases h
      exact Or.inl ⟨rfl, ha, rfl⟩
    · next ha =>
      cases h
      exact Or.inr ⟨rfl, by simpa using ha, rfl⟩

theorem abandon_eq_some {r : Except StoreError Unit} (h : abandon t s = some (r, s')) :
    ∃ tx, s.opened.find? t = some tx ∧ r = .ok () ∧ s' = s.close t := by
  unfold abandon at h
  cases htx : s.opened.find? t with
  | none =>
    rw [htx] at h
    cases h
  | some tx =>
    rw [htx] at h
    cases h
    exact ⟨tx, rfl, rfl, rfl⟩

end OrderFlow.Store
