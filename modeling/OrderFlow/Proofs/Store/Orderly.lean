import OrderFlow.Proofs.Listing
import OrderFlow.Proofs.Store.Calls

/-! # Row locks are respected

    The state of the store between any two calls (`Orderly`):

    * a row's lock is in the table of locks exactly when its owner is an
      open transaction that has it in its list;
    * whatever a transaction has staged is under locks that it holds;
    * every row, committed or staged, stands under its own id.

    Since the table of locks is a function, two open transactions never
    hold the same lock, and so never stage the same row. -/

namespace OrderFlow

/-- **A transaction in order**: what it has staged stands under its own id
    and under a lock that the transaction holds. -/
structure Transaction.Orderly (tx : Transaction) : Prop where
  orders : Table.Keyed Order.id tx.orders
  rows : Table.Keyed OutboxRow.id tx.rows
  deadLetters : tx.deadLetters.Distinct
  letterOwn : ∀ {id d}, tx.deadLetters.find? id = some (some d) → d.order = id
  orderHeld : ∀ {id o}, tx.orders.find? id = some o → LockKey.order id ∈ tx.held
  rowHeld : ∀ {id e}, tx.rows.find? id = some e → LockKey.row id ∈ tx.held
  letterHeld : ∀ {id d}, tx.deadLetters.find? id = some d → LockKey.deadLetter id ∈ tx.held

/-- **A store in order.** -/
structure Store.Orderly (s : Store) : Prop where
  orders : Table.Keyed Order.id s.orders
  rows : Table.Keyed OutboxRow.id s.rows
  deadLetters : Table.Keyed DeadLetter.order s.deadLetters
  locks : s.locks.Distinct
  below : ∀ {t tx}, s.opened.find? t = some tx → t < s.nextTx
  owned : ∀ {k t}, s.locks.find? k = some t ↔ ∃ tx, s.opened.find? t = some tx ∧ k ∈ tx.held
  each : ∀ {t tx}, s.opened.find? t = some tx → tx.Orderly

/-! ## Transactions -/

namespace Transaction

variable {tx : Transaction}

theorem orderly_empty : ({} : Transaction).Orderly where
  orders := Table.Keyed.nil
  rows := Table.Keyed.nil
  deadLetters := Table.distinct_nil
  letterOwn h := by cases h
  orderHeld h := by cases h
  rowHeld h := by cases h
  letterHeld h := by cases h

/-- Without the lock nothing is staged. -/
theorem Orderly.order_unstaged (h : tx.Orderly) {id : OrderId} (hk : LockKey.order id ∉ tx.held) :
    tx.orders.find? id = none :=
  Option.eq_none_iff_forall_ne_some.mpr fun _ ho => hk (h.orderHeld ho)

theorem Orderly.row_unstaged (h : tx.Orderly) {id : RowId} (hk : LockKey.row id ∉ tx.held) :
    tx.rows.find? id = none :=
  Option.eq_none_iff_forall_ne_some.mpr fun _ he => hk (h.rowHeld he)

theorem Orderly.letter_unstaged (h : tx.Orderly) {id : OrderId}
    (hk : LockKey.deadLetter id ∉ tx.held) : tx.deadLetters.find? id = none :=
  Option.eq_none_iff_forall_ne_some.mpr fun _ hd => hk (h.letterHeld hd)

theorem Orderly.hold (h : tx.Orderly) (key : LockKey) : (tx.hold key).Orderly where
  orders := by simpa using h.orders
  rows := by simpa using h.rows
  deadLetters := by simpa using h.deadLetters
  letterOwn hd := h.letterOwn (by simpa using hd)
  orderHeld ho := mem_held_of_mem (h.orderHeld (by simpa using ho))
  rowHeld he := mem_held_of_mem (h.rowHeld (by simpa using he))
  letterHeld hd := mem_held_of_mem (h.letterHeld (by simpa using hd))

/-- A transaction needs no lock of a row under which it has staged nothing. -/
theorem Orderly.dropRow (h : tx.Orderly) {id : RowId} (hunstaged : tx.rows.find? id = none) :
    Orderly { tx with held := tx.held.filter fun k => k ≠ .row id } := by
  refine { h with orderHeld := ?_, rowHeld := ?_, letterHeld := ?_ }
  · intro id' o ho
    simpa using h.orderHeld ho
  · intro id' e he
    have hne : id' ≠ id := by
      rintro rfl
      have he : tx.rows.find? id' = some e := he
      rw [hunstaged] at he
      cases he
    simpa [hne] using h.rowHeld he
  · intro id' d hd
    simpa using h.letterHeld hd

theorem Orderly.foldl_hold (h : tx.Orderly) (keys : List LockKey) :
    (keys.foldl Transaction.hold tx).Orderly := by
  induction keys generalizing tx with
  | nil => exact h
  | cons key rest ih => exact ih (h.hold key)

theorem Orderly.putOrder (h : tx.Orderly) {o : Order} (hheld : LockKey.order o.id ∈ tx.held) :
    (tx.putOrder o).Orderly :=
  { h with
    orders := h.orders.put rfl
    orderHeld := by
      intro id o' ho
      change Table.find? (tx.orders.put o.id o) id = some o' at ho
      rw [Table.find?_put] at ho
      split at ho
      · next hid => exact hid ▸ hheld
      · exact h.orderHeld ho }

theorem Orderly.putRow (h : tx.Orderly) {id : RowId} {e : OutboxRow} (hid : e.id = id)
    (hheld : LockKey.row id ∈ tx.held) :
    (tx.putRow id e).Orderly :=
  { h with
    rows := h.rows.put hid
    rowHeld := by
      intro id' e' he
      change Table.find? (tx.rows.put id e) id' = some e' at he
      rw [Table.find?_put] at he
      split at he
      · next hid' => exact hid' ▸ hheld
      · exact h.rowHeld he }

theorem Orderly.putRows (h : tx.Orderly) {rows : Table RowId OutboxRow}
    (hid : ∀ e ∈ rows, e.2.id = e.1) (hheld : ∀ e ∈ rows, LockKey.row e.1 ∈ tx.held) :
    (tx.putRows rows).Orderly := by
  unfold Transaction.putRows Table.putAll
  induction rows generalizing tx with
  | nil => exact h
  | cons e rest ih =>
    have hput := h.putRow (hid e List.mem_cons_self) (hheld e List.mem_cons_self)
    exact ih hput (fun e he => hid e (List.mem_cons_of_mem _ he))
      fun e he => hheld e (List.mem_cons_of_mem _ he)

theorem Orderly.putLetter (h : tx.Orderly) {id : OrderId} {d : Option DeadLetter}
    (hid : ∀ d', d = some d' → d'.order = id) (hheld : LockKey.deadLetter id ∈ tx.held) :
    (tx.putLetter id d).Orderly :=
  { h with
    deadLetters := h.deadLetters.put id d
    letterOwn := by
      intro id' d' hd
      change Table.find? (tx.deadLetters.put id d) id' = some (some d') at hd
      rw [Table.find?_put] at hd
      split at hd
      · next hid' =>
        rw [Option.some.injEq] at hd
        exact (hid d' hd).trans hid'
      · exact h.letterOwn hd
    letterHeld := by
      intro id' d' hd
      change Table.find? (tx.deadLetters.put id d) id' = some d' at hd
      rw [Table.find?_put] at hd
      split at hd
      · next hid' => exact hid' ▸ hheld
      · exact h.letterHeld hd }

end Transaction

namespace Store

variable {t : TxId} {s s' : Store} {tx tx' : Transaction}

theorem orderly_empty : Store.Orderly {} where
  orders := Table.Keyed.nil
  rows := Table.Keyed.nil
  deadLetters := Table.Keyed.nil
  locks := Table.distinct_nil
  below := by intro t tx h; cases h
  owned := by simp [Table.find?]
  each := by intro t tx h; cases h

/-! ## What holds of a store in order -/

/-- **Held locks are disjoint.** -/
theorem Orderly.owner_eq (h : s.Orderly) {u : TxId} {tx₁ tx₂ : Transaction} {k : LockKey}
    (h₁ : s.opened.find? t = some tx₁) (hk₁ : k ∈ tx₁.held)
    (h₂ : s.opened.find? u = some tx₂) (hk₂ : k ∈ tx₂.held) : t = u := by
  have ht := h.owned.mpr ⟨tx₁, h₁, hk₁⟩
  have hu := h.owned.mpr ⟨tx₂, h₂, hk₂⟩
  rw [ht, Option.some.injEq] at hu
  exact hu

theorem Orderly.not_held (h : s.Orderly) {u : TxId} {other : Transaction} {k : LockKey}
    (htx : s.opened.find? t = some tx) (hu : s.opened.find? u = some other) (hne : u ≠ t)
    (hk : k ∈ other.held) : k ∉ tx.held :=
  fun hk' => hne (h.owner_eq hu hk htx hk')

theorem Orderly.orderIn_id (h : s.Orderly) (htx : s.opened.find? t = some tx) {id : OrderId}
    {o : Order} (ho : s.orderIn tx id = some o) : o.id = id := by
  rcases Option.or_eq_some_iff.mp ho with ho | ⟨-, ho⟩
  · exact (h.each htx).orders.own ho
  · exact h.orders.own ho

theorem Orderly.rowIn_id (h : s.Orderly) (htx : s.opened.find? t = some tx) {id : RowId}
    {e : OutboxRow} (he : s.rowIn tx id = some e) : e.id = id := by
  rcases Option.or_eq_some_iff.mp he with he | ⟨-, he⟩
  · exact (h.each htx).rows.own he
  · exact h.rows.own he

/-- The rows in a transaction's listing are the ones that it finds. -/
theorem Orderly.mem_rowsIn_iff (h : s.Orderly) (htx : s.opened.find? t = some tx)
    {e : OutboxRow} : e ∈ s.rowsIn tx ↔ s.rowIn tx e.id = some e := by
  unfold rowsIn
  rw [(sortRows_perm _).mem_iff, List.mem_append, List.mem_filter, h.rows.mem_values_iff,
    (h.each htx).rows.mem_values_iff]
  -- A staged row hides the committed one in the listing, as it does in `rowIn`.
  unfold rowIn
  cases tx.rows.find? e.id <;> simp

theorem Orderly.mem_listRows_iff (h : s.Orderly) {e : OutboxRow} :
    e ∈ s.listRows ↔ s.rows.find? e.id = some e := by
  unfold listRows
  rw [(sortRows_perm _).mem_iff, h.rows.mem_values_iff]

/-- No row is listed twice. -/
theorem Orderly.listRows_nodup (h : s.Orderly) :
    (s.listRows.map (·.id)).Nodup := by
  have hperm : (s.listRows.map (·.id)).Perm (s.rows.values.map (·.id)) :=
    (sortRows_perm _).map _
  rw [hperm.nodup_iff, h.rows.map_values]
  exact h.rows.distinct

/-- The listing of dead letters has the order's own, and no other about it. -/
theorem Orderly.listLetters_about (h : s.Orderly) (id : OrderId) :
    s.listLetters.filter (·.order = id) = (s.deadLetters.find? id).toList := by
  have hperm : s.listLetters.Perm s.deadLetters.values := sortLetters_perm _
  have hdistinct : (s.listLetters.map (·.order)).Nodup := by
    rw [(hperm.map _).nodup_iff, h.deadLetters.map_values]
    exact h.deadLetters.distinct
  have hmem (d : DeadLetter) : d ∈ s.listLetters.filter (·.order = id) ↔
      s.deadLetters.find? id = some d := by
    rw [List.mem_filter, decide_eq_true_eq, hperm.mem_iff, h.deadLetters.mem_values_iff]
    constructor
    · rintro ⟨hd, rfl⟩
      exact hd
    · intro hd
      have horder := h.deadLetters.own hd
      exact ⟨horder ▸ hd, horder⟩
  cases hfind : s.deadLetters.find? id with
  | none =>
    rw [Option.toList_none, List.eq_nil_iff_forall_not_mem]
    intro d hd
    rw [hmem, hfind] at hd
    cases hd
  | some d =>
    have hnodup : s.listLetters.Nodup :=
      List.Pairwise.of_map DeadLetter.order (fun _ _ hne heq => hne (heq ▸ rfl)) hdistinct
    rw [Option.toList_some, ← List.perm_singleton,
      List.perm_ext_iff_of_nodup (List.filter_sublist.nodup hnodup) (by simp)]
    intro d'
    rw [hmem, hfind, List.mem_singleton, Option.some.injEq, eq_comm]

/-- A transaction that has only just begun lists what is committed. -/
theorem rowsIn_empty (s : Store) : s.rowsIn {} = s.listRows := by
  have hall : s.rows.values.filter
      (fun e => (Table.find? ([] : Table RowId OutboxRow) e.id).isNone) = s.rows.values := by
    simp [Table.find?]
  unfold rowsIn listRows
  rw [hall]
  simp [Table.values]

/-! ## Progress keeps order -/

theorem Orderly.progress (h : s.Orderly) (hp : Progress t s tx s' tx') (htx' : tx'.Orderly) :
    s'.Orderly where
  orders := by
    rw [hp.orders]
    exact h.orders
  rows := by
    rw [hp.rows]
    exact h.rows
  deadLetters := by
    rw [hp.deadLetters]
    exact h.deadLetters
  locks := hp.distinct h.locks
  below := by
    intro u tx₁ hu
    rw [hp.nextTx]
    by_cases hut : u = t
    · exact hut ▸ h.below hp.before
    · exact h.below (hp.others hut ▸ hu)
  each := by
    intro u tx₁ hu
    by_cases hut : u = t
    · subst hut
      rw [hp.after, Option.some.injEq] at hu
      exact hu ▸ htx'
    · exact h.each (hp.others hut ▸ hu)
  owned := by
    intro k u
    by_cases hnew : k ∈ tx'.held ∧ k ∉ tx.held
    · -- A lock that was just taken was free, so no other transaction has it.
      rw [hp.taken hnew.1 hnew.2, Option.some.injEq]
      constructor
      · rintro rfl
        exact ⟨tx', hp.after, hnew.1⟩
      · rintro ⟨tx₁, hu, hk⟩
        by_cases hut : u = t
        · exact hut.symm
        · rw [hp.others hut] at hu
          exact (lockable_iff.mp (hp.free hnew.1 hnew.2) u (h.owned.mpr ⟨tx₁, hu, hk⟩)).symm
    · have hsame : k ∈ tx.held ↔ k ∈ tx'.held := ⟨hp.keeps, fun hk => by grind⟩
      have hlocks : s'.locks.find? k = s.locks.find? k := hp.untouched (by grind)
      rw [hlocks, h.owned]
      by_cases hut : u = t
      · subst hut
        simp [hp.before, hp.after, hsame]
      · rw [hp.others hut]

/-- A row that is changed keeps its id. -/
def KeepsId (f : OutboxRow → OutboxRow) : Prop :=
  ∀ e, (f e).id = e.id

theorem Orderly.changeRow (h : s.Orderly) {id : RowId} {f : OutboxRow → OutboxRow}
    (hf : KeepsId f) {r : Except StoreError Unit} (hs : changeRow t id f s = some (r, s')) :
    s'.Orderly := by
  obtain ⟨tx, ⟨-, -, hp⟩ | ⟨e, he, -, hp⟩⟩ := changeRow_eq_some hs
  · exact h.progress hp ((h.each hp.before).hold _)
  · refine h.progress hp (((h.each hp.before).hold (.row id)).putRow ?_ Transaction.mem_held_self)
    rw [hf, h.rowIn_id hp.before he]

theorem Orderly.writeOrder (h : s.Orderly) {o : Order} {r : Except StoreError Unit}
    (hs : writeOrder t o s = some (r, s')) : s'.Orderly := by
  obtain ⟨tx, -, hp⟩ := writeOrder_eq_some hs
  have htx := ((h.each hp.before).hold (.order o.id)).putOrder Transaction.mem_held_self
  exact h.progress hp htx

theorem Orderly.holdOrder (h : s.Orderly) {id : OrderId} {r : Except StoreError (Option Order)}
    (hs : holdOrder t id s = some (r, s')) : s'.Orderly := by
  obtain ⟨tx, -, hp⟩ := holdOrder_eq_some hs
  exact h.progress hp ((h.each hp.before).hold _)

theorem Orderly.writeRow (h : s.Orderly) {e : OutboxRow} {r : Except StoreError Unit}
    (hs : writeRow t e s = some (r, s')) : s'.Orderly := by
  obtain ⟨tx, -, hp⟩ := writeRow_eq_some hs
  have htx := ((h.each hp.before).hold (.row e.id)).putRow rfl Transaction.mem_held_self
  exact h.progress hp htx

theorem Orderly.writeLetter (h : s.Orderly) {d : DeadLetter} {r : Except StoreError Unit}
    (hs : writeLetter t d s = some (r, s')) : s'.Orderly := by
  obtain ⟨tx, -, hp⟩ := writeLetter_eq_some hs
  have htx := ((h.each hp.before).hold (.deadLetter d.order)).putLetter (d := some d)
    (by rintro d' hd; cases hd; rfl) Transaction.mem_held_self
  exact h.progress hp htx

theorem Orderly.dropLetter (h : s.Orderly) {id : OrderId} {r : Except StoreError Bool}
    (hs : dropLetter t id s = some (r, s')) : s'.Orderly := by
  obtain ⟨tx, -, hp⟩ := dropLetter_eq_some hs
  have htx := ((h.each hp.before).hold (.deadLetter id)).putLetter (d := none)
    (by rintro d' hd; cases hd) Transaction.mem_held_self
  exact h.progress hp htx

theorem Orderly.claimDue (h : s.Orderly) {limit : Nat} {now : Instant}
    {r : Except StoreError (List OutboxRow)} (hs : claimDue t limit now s = some (r, s')) :
    s'.Orderly := by
  obtain ⟨tx, rows, -, -, hp⟩ := claimDue_eq_some hs
  exact h.progress hp ((h.each hp.before).foldl_hold _)

theorem Orderly.endStaleLeases (h : s.Orderly) {limit : Instant} {r : Except StoreError Nat}
    (hs : endStaleLeases t limit s = some (r, s')) : s'.Orderly := by
  obtain ⟨tx, rows, -, -, hp⟩ := endStaleLeases_eq_some hs
  refine h.progress hp (((h.each hp.before).foldl_hold (rowKeys rows)).putRows ?_ ?_)
  · intro e he
    obtain ⟨e', -, rfl⟩ := List.mem_map.mp he
    rfl
  · intro e he
    obtain ⟨e', he', rfl⟩ := List.mem_map.mp he
    exact mem_held_foldl_hold.mpr (Or.inl (List.mem_map.mpr ⟨e', he', rfl⟩))

/-! ## Begin and end -/

theorem Orderly.setAvailable (h : s.Orderly) (b : Bool) :
    Store.Orderly { s with available := b } where
  orders := h.orders
  rows := h.rows
  deadLetters := h.deadLetters
  locks := h.locks
  below := h.below
  owned := h.owned
  each := h.each

/-- The number of the next transaction is not in use. -/
theorem Orderly.nextTx_free (h : s.Orderly) : s.opened.find? s.nextTx = none := by
  cases hn : s.opened.find? s.nextTx with
  | none => rfl
  | some tx => exact absurd (h.below hn) (Nat.lt_irrefl _)

theorem Orderly.start (h : s.Orderly) : s.begun.Orderly where
  orders := h.orders
  rows := h.rows
  deadLetters := h.deadLetters
  locks := h.locks
  below := by
    intro u tx₁ hu
    rw [opened_begun] at hu
    split at hu
    · next heq => exact heq ▸ Nat.lt_succ_self _
    · exact Nat.lt_succ_of_lt (h.below hu)
  each := by
    intro u tx₁ hu
    rw [opened_begun] at hu
    split at hu
    · cases hu
      exact Transaction.orderly_empty
    · exact h.each hu
  owned := by
    intro k u
    rw [opened_begun]
    change s.locks.find? k = some u ↔ _
    rw [h.owned]
    -- The new transaction holds no locks, and its number has never had any.
    by_cases hu : s.nextTx = u
    · subst hu
      simp [h.nextTx_free]
    · simp [hu]

theorem opened_close (s : Store) (t u : TxId) :
    (s.close t).opened.find? u = if t = u then none else s.opened.find? u := by
  unfold close
  rw [Table.find?_erase]

theorem Orderly.close (h : s.Orderly) (t : TxId) : (s.close t).Orderly where
  orders := h.orders
  rows := h.rows
  deadLetters := h.deadLetters
  locks := h.locks.filter _
  below := by
    intro u tx₁ hu
    rw [opened_close] at hu
    split at hu
    · cases hu
    · exact h.below hu
  each := by
    intro u tx₁ hu
    rw [opened_close] at hu
    split at hu
    · cases hu
    · exact h.each hu
  owned := by
    intro k u
    -- The locks of `t` go with it and no others do.
    have hlocks : (s.close t).locks.find? k = (s.locks.find? k).filter fun v => v ≠ t :=
      h.locks.find?_filter _ k
    rw [hlocks, opened_close, Option.filter_eq_some_iff, h.owned]
    by_cases hu : t = u
    · simp [hu]
    · simp [hu, Ne.symm hu]

theorem orders_absorb (h : tx.Orderly) (s : Store) (id : OrderId) :
    (s.absorb tx).orders.find? id = s.orderIn tx id :=
  Table.find?_putAll h.orders.distinct id

theorem rows_absorb (h : tx.Orderly) (s : Store) (id : RowId) :
    (s.absorb tx).rows.find? id = s.rowIn tx id :=
  Table.find?_putAll h.rows.distinct id

theorem deadLetters_absorb (h : tx.Orderly) (s : Store) (id : OrderId) :
    (s.absorb tx).deadLetters.find? id = s.letterIn tx id := by
  unfold letterIn
  cases hd : tx.deadLetters.find? id with
  | none => exact Table.find?_settle_of_none hd
  | some d => exact Table.find?_settle_of_some h.deadLetters hd

theorem Orderly.absorb (h : s.Orderly) (htx : tx.Orderly) : (s.absorb tx).Orderly where
  orders := h.orders.putAll htx.orders
  rows := h.rows.putAll htx.rows
  deadLetters :=
    { distinct := h.deadLetters.distinct.settle _
      own := by
        intro id d hd
        rw [deadLetters_absorb htx] at hd
        unfold letterIn at hd
        -- Either the transaction leaves the letter alone or it has staged it.
        cases hs : tx.deadLetters.find? id with
        | none =>
          rw [hs] at hd
          exact h.deadLetters.own hd
        | some d' =>
          rw [hs] at hd
          simp only at hd
          subst hd
          exact htx.letterOwn hs }
  locks := h.locks
  below := h.below
  owned := h.owned
  each := h.each

end Store

end OrderFlow
