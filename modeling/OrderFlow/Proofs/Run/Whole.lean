import OrderFlow.Proofs.Around
import OrderFlow.Proofs.Run.Effect
import OrderFlow.Proofs.Transport

/-! # Whole transactions

    What the operations and the polls do to the tables, seen from outside:
    each transaction of theirs is put over the tables as one piece
    (`World.Wrote`) or leaves them as they were.

    A transaction ends in one of three ways (`World.Ended`), and the last of
    them, a refusal by the store, is not seen in a steady world.  One lemma an
    operation says what its transaction holds. -/

namespace OrderFlow

open World Attempt

/-! ## Transactions as one piece -/

namespace World

/-- **A transaction has begun** in `w₁`, and there is nothing else that is new. -/
structure Begun (w : World) (t : TxId) (w₁ : World) : Prop where
  opened : w₁.store.opened.find? t = some {}
  others : ∀ u, w₁.store.opened.find? u = if t = u then some {} else w.store.opened.find? u
  fresh : w.store.opened.find? t = none
  tables : w.store.SameTables w₁.store
  orderly : w₁.store.Orderly
  calls : w₁.processor.calls = w.processor.calls
  ids : w₁.ids = w.ids
  around : Around w w₁

/-- **A whole transaction**: between the two worlds `tx` was put over the tables,
    and the processor was called for the orders `called`.  The same transactions
    are open. -/
structure Wrote (w : World) (called : List OrderId) (tx : Transaction) (w' : World) : Prop where
  tables : (w.store.absorb tx).SameTables w'.store
  opened : ∀ u, w'.store.opened.find? u = w.store.opened.find? u
  orderly : w'.store.Orderly
  staged : tx.Orderly
  calls : w'.processor.calls = w.processor.calls ++ called
  ids : w.ids.next ≤ w'.ids.next
  around : Around w w'

/-- **How a transaction of its own ends**, if `Q` holds of what its body answers,
    which orders it has called the processor for, what it has staged, and the
    ids that are left. -/
inductive Ended {α : Type} (w : World)
    (Q : Except OperationError α → List OrderId → Transaction → IdSupply → Prop) :
    Except OperationError α → World → Prop where
  /-- It has committed. -/
  | committed {a : α} {called : List OrderId} {tx : Transaction} {w' : World}
    (h : Q (.ok a) called tx w'.ids) (hwrote : Wrote w called tx w') : Ended w Q (.ok a) w'
  /-- Its body has failed, and it was abandoned. -/
  | failed {e : OperationError} {called : List OrderId} {tx : Transaction} {w' : World}
    (h : Q (.error e) called tx w'.ids) (hwrote : Wrote w called {} w') : Ended w Q (.error e) w'
  /-- The store has refused its begin or its commit. -/
  | refused {called : List OrderId} {w' : World} (hwrote : Wrote w called {} w')
    (hsteady : ¬ w.Steady) : Ended w Q (.error (.store Store.offline)) w'

section wrote
variable {w w' : World} {called : List OrderId} {tx : Transaction}

/-- The tables afterwards are as the transaction has seen them. -/
theorem Wrote.orders (h : Wrote w called tx w') (id : OrderId) :
    w'.store.orders.find? id = w.store.orderIn tx id := by
  rw [← h.tables.orders]
  exact Store.orders_absorb h.staged _ _

theorem Wrote.rows (h : Wrote w called tx w') (id : RowId) :
    w'.store.rows.find? id = w.store.rowIn tx id := by
  rw [← h.tables.rows]
  exact Store.rows_absorb h.staged _ _

theorem Wrote.letters (h : Wrote w called tx w') (id : OrderId) :
    w'.store.deadLetters.find? id = w.store.letterIn tx id := by
  rw [← h.tables.deadLetters]
  exact Store.deadLetters_absorb h.staged _ _

/-- Where nothing is staged, the tables stay as they are. -/
theorem Wrote.unchanged (h : Wrote w called {} w') :
    (∀ id, w'.store.orders.find? id = w.store.orders.find? id) ∧
      (∀ id, w'.store.rows.find? id = w.store.rows.find? id) ∧
      ∀ id, w'.store.deadLetters.find? id = w.store.deadLetters.find? id := by
  refine ⟨fun id => ?_, fun id => ?_, fun id => ?_⟩
  · rw [h.orders, Store.orderIn_empty]
  · rw [h.rows, Store.rowIn_empty]
  · rw [h.letters, Store.letterIn_empty]

/-- Nothing was written, but the processor may have been called. -/
theorem wrote_nothing (hw : w'.store.Orderly) (htables : w.store.SameTables w'.store)
    (hopened : ∀ u, w'.store.opened.find? u = w.store.opened.find? u)
    (hcalls : w'.processor.calls = w.processor.calls ++ called)
    (hids : w.ids.next ≤ w'.ids.next) (haround : Around w w') : Wrote w called {} w' :=
  ⟨htables, hopened, hw, Transaction.orderly_empty, hcalls, hids, haround⟩

/-- Once the transaction is closed, the same ones are open as before its begin. -/
theorem Begun.closed {t : TxId} {w₁ : World} {s : Store} (h : Begun w t w₁)
    (hp : Store.Progress t w₁.store {} s tx) (u : TxId) :
    (if t = u then none else s.opened.find? u) = w.store.opened.find? u := by
  by_cases hu : t = u
  · rw [if_pos hu, ← hu, h.fresh]
  · rw [if_neg hu, hp.others (Ne.symm hu), h.others, if_neg hu]

theorem Ended.around {α : Type} {r : Except OperationError α}
    {Q : Except OperationError α → List OrderId → Transaction → IdSupply → Prop}
    (h : Ended w Q r w') : Around w w' := by
  cases h with
  | committed _ hwrote => exact hwrote.around
  | failed _ hwrote => exact hwrote.around
  | refused hwrote _ => exact hwrote.around

theorem Ended.opened {α : Type} {r : Except OperationError α}
    {Q : Except OperationError α → List OrderId → Transaction → IdSupply → Prop}
    (h : Ended w Q r w') (u : TxId) : w'.store.opened.find? u = w.store.opened.find? u := by
  cases h with
  | committed _ hwrote => exact hwrote.opened u
  | failed _ hwrote => exact hwrote.opened u
  | refused hwrote _ => exact hwrote.opened u

theorem Ended.orderly {α : Type} {r : Except OperationError α}
    {Q : Except OperationError α → List OrderId → Transaction → IdSupply → Prop}
    (h : Ended w Q r w') : w'.store.Orderly := by
  cases h with
  | committed _ hwrote => exact hwrote.orderly
  | failed _ hwrote => exact hwrote.orderly
  | refused hwrote _ => exact hwrote.orderly

theorem Ended.ids {α : Type} {r : Except OperationError α}
    {Q : Except OperationError α → List OrderId → Transaction → IdSupply → Prop}
    (h : Ended w Q r w') : w.ids.next ≤ w'.ids.next := by
  cases h with
  | committed _ hwrote => exact hwrote.ids
  | failed _ hwrote => exact hwrote.ids
  | refused hwrote _ => exact hwrote.ids

theorem Ended.imp {α : Type} {r : Except OperationError α}
    {Q Q' : Except OperationError α → List OrderId → Transaction → IdSupply → Prop}
    (h : Ended w Q r w') (hQ : ∀ {r called tx ids}, Q r called tx ids → Q' r called tx ids) :
    Ended w Q' r w' := by
  cases h with
  | committed h hwrote => exact .committed (hQ h) hwrote
  | failed h hwrote => exact .failed (hQ h) hwrote
  | refused hwrote hsteady => exact .refused hwrote hsteady

/-- A transaction that fails or is refused writes nothing. -/
theorem Ended.of_error {α : Type} {e : OperationError}
    {Q : Except OperationError α → List OrderId → Transaction → IdSupply → Prop}
    (h : Ended w Q (.error e) w') : ∃ called, Wrote w called {} w' := by
  cases h with
  | failed _ hwrote => exact ⟨_, hwrote⟩
  | refused hwrote _ => exact ⟨_, hwrote⟩

end wrote

end World

namespace Call

variable {w w' w₁ : World} {t : TxId} {α : Type}

/-- A call on the store draws no ids. -/
theorem inStore_ids {m : StoreCall α} {r : Except OperationError α}
    (h : inStore m w = some (r, w')) : w'.ids = w.ids := by
  obtain ⟨r₀, s', -, -, rfl⟩ := inStore_eq_some h
  rfl

theorem start_begun (hw : w.store.Orderly) (h : start w = some (.ok t, w₁)) : Begun w t w₁ := by
  obtain ⟨hopened, htables, hcalls, horderly⟩ := start_ok h
  have hids : w₁.ids = w.nextDisturbance.ids := inStore_ids (start_eq w ▸ h)
  rw [nextDisturbance_ids] at hids
  obtain ⟨hothers, hfresh⟩ := start_opened hw h
  exact ⟨hopened, hothers, hfresh, htables, horderly hw, hcalls, hids, around_start w _ w₁ h⟩

/-- **A transaction of its own**, if its body only works inside it. -/
theorem transact_ended {body : TxId → Call α} {r : Except OperationError α}
    {Q : Except OperationError α → List OrderId → Transaction → IdSupply → Prop}
    (hw : w.store.Orderly) (haround : ∀ t, Moves Around (body t))
    (hbody : ∀ {t w₁ w₂ rb}, Begun w t w₁ → body t w₁ = some (rb, w₂) →
      ∃ called tx, Works t called w₁ {} w₂ tx ∧ tx.Orderly ∧ Q rb called tx w₂.ids)
    (h : transact body w = some (r, w')) : Ended w Q r w' := by
  have hall : Around w w' := around_transact haround w r w' h
  -- In a steady world the store is available to the end.
  have hsteady (hoffline : w'.store.available = false) : ¬ w.Steady := by
    intro hs
    have havailable := (hall.steady hs).store
    simp [hoffline] at havailable
  rcases transact_eq_some h with ⟨e, hstart, rfl⟩ | ⟨t, w₁, hstart, hrest⟩
  · -- It was refused before anything was done.
    obtain ⟨w₀, helse, ⟨hr, -, -⟩ | ⟨hr, hoffline, rfl⟩⟩ := start_eq_some hstart
    · simp at hr
    · cases hr
      have hnothing : Wrote w [] {} w' :=
        wrote_nothing (helse.orderly hw) helse.sameTables (fun u => by rw [helse.opened])
          (by simpa using helse.calls) helse.ids hall
      exact .refused hnothing (hsteady hoffline)
  have hbegun := start_begun hw hstart
  have hids₁ : w.ids.next = w₁.ids.next := by rw [hbegun.ids]
  rcases hrest with ⟨a, w₂, r', hrun, hcommit, rfl⟩ | ⟨e, w₂, hrun, habandon, rfl⟩
  · obtain ⟨called, tx, hworks, htx, hQ⟩ := hbody hbegun hrun
    have hcalls : w₂.processor.calls = w.processor.calls ++ called := by
      rw [hworks.calls, hbegun.calls]
    have htables := hbegun.tables.trans hworks.store.sameTables
    have horderly := hbegun.orderly.progress hworks.store htx
    have hcontinues : Continues (fun _ => True) w₂ w' :=
      Continues.respects.commit t w₂ _ w' hcommit
    have hends : w'.store.Orderly := hcontinues.orderly horderly
    have hids : w'.ids = w₂.nextDisturbance.ids := inStore_ids (commit_eq t w₂ ▸ hcommit)
    rw [nextDisturbance_ids] at hids
    have hids' : w.ids.next ≤ w'.ids.next := by
      rw [hids, hids₁]
      exact hworks.ids
    have hopened (u : TxId) : w'.store.opened.find? u = w.store.opened.find? u := by
      rw [commit_opened hcommit, hbegun.closed hworks.store]
    obtain ⟨hcalls', hend⟩ := commit_ends hworks.store.after hcommit
    rw [hcalls] at hcalls'
    rcases hend with ⟨rfl, hsame⟩ | ⟨rfl, hsame⟩
    · exact .committed (hids ▸ hQ)
        ⟨(htables.absorb tx).trans hsame, hopened, hends, htx, hcalls', hids', hall⟩
    · -- The commit was refused.  Nothing is written, but the processor may have been called.
      refine .refused (wrote_nothing hends (htables.trans hsame) hopened hcalls' hids' hall)
        (hsteady ?_)
      obtain ⟨w₃, tx₃, -, -, ⟨hr, -, -⟩ | ⟨-, hoffline, rfl⟩⟩ := commit_eq_some hcommit
      · simp at hr
      · exact hoffline
  · -- Its body has failed, so it was abandoned.
    obtain ⟨called, tx, hworks, htx, hQ⟩ := hbody hbegun hrun
    have horderly := hbegun.orderly.progress hworks.store htx
    obtain ⟨tx', -, -, rfl⟩ := abandon_eq_some habandon
    have hcalls : w₂.processor.calls = w.processor.calls ++ called := by
      rw [hworks.calls, hbegun.calls]
    refine .failed hQ (wrote_nothing (horderly.close t) ?_ (fun u => ?_) hcalls ?_ hall)
    · exact (hbegun.tables.trans hworks.store.sameTables).trans (Store.sameTables_close _ t)
    · show (w₂.store.close t).opened.find? u = _
      rw [Store.opened_close, hbegun.closed hworks.store]
    · show w.ids.next ≤ w₂.ids.next
      rw [hids₁]
      exact hworks.ids

end Call

/-! ## Attempts -/

section attempts
variable {w w' w₁ w₂ : World} {t : TxId} {id : OrderId} {now : Instant} {m : Nat}

/-- **An attempt** on an order: what is answered, for which orders the processor
    is called, and what is staged. -/
inductive Tries (w : World) (id : OrderId) (maxRetries : Nat) :
    Except OperationError Outcome → List OrderId → Transaction → Prop where
  /-- There is no such order. -/
  | unknown (hnone : w.store.orders.find? id = none) :
    Tries w id maxRetries (.error (.orderNotFound id)) [] (({} : Transaction).hold (.order id))
  /-- The order is settled. -/
  | passed {o : Order} (ho : w.store.orders.find? id = some o) (hstatus : o.status ≠ .pending) :
    Tries w id maxRetries (.ok o.passedOver) [] (({} : Transaction).hold (.order id))
  /-- The processor was called. -/
  | tried {o : Order} {now : Instant} {failure : Option String}
    (ho : w.store.orders.find? id = some o) (hid : o.id = id) (hstatus : o.status = .pending)
    (hfailure : failure = (w.processor.react w.processor.calls id).failure) :
    Tries w id maxRetries (.ok (o.outcome maxRetries failure)) [id]
      ((({} : Transaction).hold (.order id)).concluded o now maxRetries failure)

theorem processIn_tries {r : Except OperationError Outcome} (hbegun : Begun w t w₁)
    (h : processIn t id now m w₁ = some (r, w₂)) :
    ∃ called tx, Works t called w₁ {} w₂ tx ∧ tx.Orderly ∧ Tries w id m r called tx := by
  have hheld : (({} : Transaction).hold (.order id)).Orderly :=
    Transaction.orderly_empty.hold _
  -- The transaction sees what was committed when it has begun.
  have hseen : w₁.store.orderIn {} id = w.store.orders.find? id := by
    rw [← hbegun.tables.orderIn]
    rfl
  obtain ⟨tx, hcases⟩ := processIn_concludes hbegun.orderly h
  rcases hcases with ⟨hnone, rfl, hworks⟩ | ⟨o, ho, hstatus, rfl, hworks⟩ |
    ⟨o, failure, ho, hid, hstatus, hfailure, rfl, hworks⟩
  all_goals obtain rfl := hworks.store.tx_eq hbegun.opened
  · exact ⟨_, _, hworks, hheld, .unknown (hseen ▸ hnone)⟩
  · exact ⟨_, _, hworks, hheld, .passed (hseen ▸ ho) hstatus⟩
  · have hconcluded := (attempted_concluded o now m _ failure).orderly hheld
      (hid ▸ Transaction.mem_held_self)
    rw [hbegun.calls, hbegun.around.react] at hfailure
    exact ⟨_, _, hworks, hconcluded, .tried (hseen ▸ ho) hid hstatus hfailure⟩

/-- **An attempt in a transaction of its own.** -/
theorem process_ended {r : Except OperationError Outcome} (hw : w.store.Orderly)
    (h : process id m w = some (r, w')) :
    Ended w (fun r called tx _ => Tries w id m r called tx) r w' := by
  have haround (t : TxId) : Moves Around (do processIn t id (← Call.now) m : Call Outcome) :=
    Call.around_now.bind around_chains fun now => around_processIn id
  exact Call.transact_ended hw haround (fun hbegun hrun => processIn_tries hbegun hrun) h

/-- An attempt leaves all rows as they are. -/
theorem Tries.rowIn {r : Except OperationError Outcome} {called : List OrderId} {tx : Transaction}
    (h : Tries w id m r called tx) (row : RowId) :
    w.store.rowIn tx row = w.store.rows.find? row := by
  cases h with
  | unknown | passed => simp
  | tried => simp [Store.rowIn_concluded]

/-- An attempt neither adds orders nor takes any away. -/
theorem Tries.orders_isSome {r : Except OperationError Outcome} {called : List OrderId}
    {tx : Transaction} (h : Tries w id m r called tx) (i : OrderId) :
    (w.store.orderIn tx i).isSome = (w.store.orders.find? i).isSome := by
  cases h with
  | unknown | passed => simp
  | tried ho hid =>
    rw [Store.orderIn_concluded]
    split
    · next hi => simp [← hi, hid, ho]
    · simp

end attempts

/-! ## Rows -/

section rows
variable {w w' w₁ w₂ : World} {t : TxId} {now : Instant}

/-- **Rows alone are written**, and a row that becomes another one does so as
    `P` says. -/
structure Rewrites (w : World) (P : OutboxRow → OutboxRow → Prop) (called : List OrderId)
    (tx : Transaction) : Prop where
  called : called = []
  orders : tx.orders = []
  letters : tx.deadLetters = []
  rows : ∀ id, w.store.rowIn tx id = w.store.rows.find? id ∨
    ∃ e e', w.store.rows.find? id = some e ∧ w.store.rowIn tx id = some e' ∧ P e e'

theorem rewrites_nothing (w : World) (P : OutboxRow → OutboxRow → Prop) (key : LockKey) :
    Rewrites w P [] (({} : Transaction).hold key) where
  called := rfl
  orders := by simp
  letters := by simp
  rows id := by simp

/-- What becomes of orders and rows, if rows alone are written. -/
theorem Rewrites.tables {P : OutboxRow → OutboxRow → Prop} {called : List OrderId}
    {tx : Transaction} (h : Rewrites w P called tx) (hwrote : Wrote w called tx w') :
    (∀ id, w'.store.orders.find? id = w.store.orders.find? id) ∧
      ∀ id, w'.store.rows.find? id = w.store.rows.find? id ∨
        ∃ e e', w.store.rows.find? id = some e ∧ w'.store.rows.find? id = some e' ∧ P e e' := by
  refine ⟨fun id => ?_, fun id => ?_⟩
  · rw [hwrote.orders]
    exact Store.orderIn_of_unstaged (by rw [h.orders]; rfl) _
  · rw [hwrote.rows]
    exact h.rows id

/-- The same of a whole transaction, however it has ended. -/
theorem World.Ended.rewrites {α : Type} {P : OutboxRow → OutboxRow → Prop}
    {r : Except OperationError α}
    (h : Ended w (fun _ called tx _ => Rewrites w P called tx) r w') :
    (∀ id, w'.store.orders.find? id = w.store.orders.find? id) ∧
      ∀ id, w'.store.rows.find? id = w.store.rows.find? id ∨
        ∃ e e', w.store.rows.find? id = some e ∧ w'.store.rows.find? id = some e' ∧ P e e' := by
  cases h with
  | committed hQ hwrote => exact hQ.tables hwrote
  | failed _ hwrote | refused hwrote _ =>
    obtain ⟨horders, hrows, -⟩ := hwrote.unchanged
    exact ⟨horders, fun id => Or.inl (hrows id)⟩

/-- Stale leases are ended, and only those of rows in processing. -/
def EndsLease (e e' : OutboxRow) : Prop :=
  e.status = .processing ∧ e' = e.endLease

/-- **Stale leases end** in a transaction of their own. -/
theorem Claimant.release_ended {c : Claimant} {r : Except OperationError Nat}
    (hw : w.store.Orderly) (h : c.release now w = some (r, w')) :
    Ended w (fun _ called tx _ => Rewrites w EndsLease called tx) r w' := by
  refine Call.transact_ended hw
    (fun t => Call.around_inStore (Store.moves_endStaleLeases _)) ?_ h
  intro t w₁ w₂ rb hbegun hrun
  obtain ⟨r₀, s', hs, -, rfl⟩ := Call.inStore_eq_some hrun
  obtain ⟨tx, rows, -, hrows, hp⟩ := Store.endStaleLeases_eq_some hs
  obtain rfl := hp.tx_eq hbegun.opened
  refine ⟨[], _, Call.works_inStore hp, (hbegun.orderly.endStaleLeases hs).each hp.after, rfl,
    by simp [Transaction.putRows], by simp [Transaction.putRows], ?_⟩
  intro id
  have hstaged := Table.find?_putAll_cases [] (rows.map fun e => (e.id, e.endLease)) id
  unfold Store.rowIn Transaction.putRows
  rw [Store.foldl_hold_rows]
  rcases hstaged with hnone | ⟨e', he', hfound⟩
  · left
    change (Table.find? (Table.putAll [] _) id).or _ = _
    rw [hnone]
    rfl
  · right
    obtain ⟨e, he, hpair⟩ := List.mem_map.mp he'
    simp only [Prod.mk.injEq] at hpair
    rw [hrows] at he
    -- Nothing was staged before, so the row that is seen is the committed one.
    obtain ⟨hseen, hstale, -⟩ := Store.mem_lockableRows.mp he
    have hcommitted := (hbegun.orderly.mem_rowsIn_iff hbegun.opened).mp hseen
    rw [← hbegun.tables.rowIn, Store.rowIn_empty, hpair.1] at hcommitted
    refine ⟨e, e', hcommitted, ?_, ?_, hpair.2.symm⟩
    · change (Table.find? (Table.putAll [] _) id).or _ = _
      rw [hfound, Option.some_or]
    · simp only [OutboxRow.isStale, decide_eq_true_eq] at hstale
      exact hstale.1

/-- The transaction's view of the rows after a lease: those that are named are
    leased if it succeeds, and no other is. -/
theorem Claimant.leaseAll_progress {c : Claimant} {s s' : Store} {tx : Transaction}
    {rows : List OutboxRow} {r : Except StoreError Unit} (hs : s.Orderly)
    (htx : s.opened.find? t = some tx) (h : c.leaseAll t now rows s = some (r, s')) :
    ∃ tx', Store.Progress t s tx s' tx' ∧ s'.Orderly ∧ tx'.orders = tx.orders ∧
      tx'.deadLetters = tx.deadLetters ∧
      (∀ id, s.rowIn tx' id = s.rowIn tx id ∨
        ∃ e ∈ rows, e.id = id ∧
          s.rowIn tx' id = (s.rowIn tx id).map fun e => e.lease now c.name) ∧
      (r = .ok () → ∀ e ∈ rows,
        s.rowIn tx' e.id = (s.rowIn tx e.id).map fun e => e.lease now c.name) := by
  induction rows generalizing s tx with
  | nil =>
    cases h
    exact ⟨tx, .refl htx, hs, rfl, rfl, fun id => Or.inl rfl, by simp⟩
  | cons e rest ih =>
    have hkeeps : Store.KeepsId fun e => e.lease now c.name := fun _ => rfl
    rcases bind_eq_some_iff.mp h with ⟨_, s₁, hfirst, hrest⟩ | ⟨cause, hfirst, rfl⟩
    · obtain ⟨tx₀, ⟨-, hr, -⟩ | ⟨row, hrow, -, hp⟩⟩ := Store.changeRow_eq_some hfirst
      · simp at hr
      obtain rfl := hp.tx_eq htx
      have hs₁ := hs.changeRow hkeeps hfirst
      obtain ⟨tx', hp', hs', horders, hletters, hrows, hall⟩ := ih hs₁ hp.after hrest
      -- What the rest of the leases starts from.
      have hview (id : RowId) : s₁.rowIn ((tx₀.hold (.row e.id)).putRow e.id
          (row.lease now c.name)) id =
          if e.id = id then some (row.lease now c.name) else s.rowIn tx₀ id := by
        rw [← hp.sameTables.rowIn, Store.rowIn_putRow, Store.rowIn_hold]
      simp only [hview, ← hp.sameTables.rowIn] at hrows hall
      -- A second lease of the same row leaves it as the first one did.
      have hself : s.rowIn tx' e.id = (s.rowIn tx₀ e.id).map fun e => e.lease now c.name := by
        have hagain := hrows e.id
        rw [if_pos rfl] at hagain
        rw [hrow]
        rcases hagain with hsame | ⟨e₁, -, -, hagain⟩
        · exact hsame
        · exact hagain
      refine ⟨tx', hp.trans hp', hs', by simpa [Transaction.putRow] using horders,
        by simpa [Transaction.putRow] using hletters, fun id => ?_, fun hr e' he' => ?_⟩
      · by_cases hid : e.id = id
        · exact Or.inr ⟨e, List.mem_cons_self, hid, hid ▸ hself⟩
        · have hlater := hrows id
          rw [if_neg hid] at hlater
          rcases hlater with hsame | ⟨e₁, he₁, hid₁, hleased⟩
          · exact Or.inl hsame
          · exact Or.inr ⟨e₁, List.mem_cons_of_mem _ he₁, hid₁, hleased⟩
      · by_cases hid : e.id = e'.id
        · exact hid ▸ hself
        · rcases List.mem_cons.mp he' with rfl | he'
          · exact absurd rfl hid
          · have hleased := hall hr e' he'
            rwa [if_neg hid] at hleased
    · obtain ⟨tx₀, ⟨hnone, -, hp⟩ | ⟨row, -, hr, -⟩⟩ := Store.changeRow_eq_some hfirst
      · obtain rfl := hp.tx_eq htx
        exact ⟨_, hp, hs.changeRow hkeeps hfirst, by simp, by simp, fun id => by simp, by simp⟩
      · simp at hr

/-- **Due rows are leased**: each row that is found was waiting, it is found
    once, and it is leased afterwards. -/
structure Leases (w : World) (c : Claimant) (now : Instant) (found : List OutboxRow)
    (called : List OrderId) (tx : Transaction) : Prop where
  rewrites : Rewrites w (fun e e' => e ∈ found ∧ e' = e.lease now c.name) called tx
  seen : ∀ e ∈ found, w.store.rows.find? e.id = some e ∧ e.status = .pending
  distinct : (found.map (·.id)).Nodup
  leased : ∀ e ∈ found, w.store.rowIn tx e.id = some (e.lease now c.name)

/-- Rows that are claimed first in a transaction are committed and wait, and each is
    claimed once. -/
theorem World.Begun.claimed (h : Begun w t w₁) {limit : Nat} {rows : List OutboxRow} {s : Store}
    (hclaim : Store.claimDue t limit now w₁.store = some (.ok rows, s)) :
    (∀ e ∈ rows, w.store.rows.find? e.id = some e ∧ e.status = .pending) ∧
      (rows.map (·.id)).Nodup := by
  obtain ⟨tx, rows', hr, hrows, hp⟩ := Store.claimDue_eq_some hclaim
  cases hr
  obtain rfl := hp.tx_eq h.opened
  refine ⟨fun e he => ?_, ?_⟩
  · obtain ⟨hin, hdue, -⟩ := hrows e he
    have hfound := (h.orderly.mem_rowsIn_iff h.opened).mp hin
    rw [← h.tables.rowIn, Store.rowIn_empty] at hfound
    simp only [OutboxRow.isDue, decide_eq_true_eq] at hdue
    exact ⟨hfound, hdue.1⟩
  · -- They are some of the rows that are listed, and each of those is listed once.
    have hnodup := h.orderly.listRows_nodup
    rw [← Store.rowsIn_empty] at hnodup
    unfold Store.claimDue at hclaim
    rw [h.opened] at hclaim
    cases hclaim
    exact ((List.take_sublist _ _).trans List.filter_sublist).map _ |>.nodup hnodup

/-- **Due rows are leased** in a transaction of their own. -/
theorem Claimant.lease_ended {c : Claimant} {r : Except OperationError (List OutboxRow)}
    (hw : w.store.Orderly) (h : c.lease now w = some (r, w')) :
    Ended w (fun r called tx _ => called = [] ∧
      ∀ found, r = .ok found → Leases w c now found called tx) r w' := by
  have haround (t : TxId) : Moves Store.AsAvailable (do
      let rows ← Store.claimDue t c.batchSize now
      c.leaseAll t now rows
      pure rows) := by
    refine (Store.moves_claimDue _ _).bind Store.asAvailable_chains fun rows => ?_
    exact (Store.moves_leaseAll c now rows).bind Store.asAvailable_chains fun _ =>
      Moves.pure Store.asAvailable_chains _
  refine Call.transact_ended hw (fun t => Call.around_inStore (haround t)) ?_ h
  intro t w₁ w₂ rb hbegun hrun
  obtain ⟨r₀, s', hs, rfl, rfl⟩ := Call.inStore_eq_some hrun
  rcases bind_eq_some_iff.mp hs with ⟨rows, s₁, hclaim, hleases⟩ | ⟨cause, hclaim, -⟩
  · obtain ⟨tx, rows', hr, -, hp⟩ := Store.claimDue_eq_some hclaim
    cases hr
    obtain rfl := hp.tx_eq hbegun.opened
    have hs₁ := hbegun.orderly.claimDue hclaim
    obtain ⟨hseen, hlisted⟩ := hbegun.claimed hclaim
    have hunlocked (id : RowId) :
        s₁.rowIn ((Store.rowKeys rows).foldl Transaction.hold {}) id =
          w.store.rows.find? id := by
      rw [← hp.sameTables.rowIn, ← hbegun.tables.rowIn]
      exact (Store.rowIn_congr (congrArg (·.find? id) (Store.foldl_hold_rows _ _))).trans
        (Store.rowIn_empty _ _)
    -- What is staged are leases, and if they succeed, one for each row.
    have hstaged {rs : Except StoreError Unit} {s₂ : Store}
        (hall : c.leaseAll t now rows s₁ = some (rs, s₂)) :
        ∃ tx, Store.Progress t w₁.store {} s₂ tx ∧ tx.Orderly ∧
          (rs = .ok () → Leases w c now rows [] tx) := by
      obtain ⟨tx, hp', hs₂, horders, hletters, hviews, hleased⟩ :=
        c.leaseAll_progress hs₁ hp.after hall
      simp only [hunlocked, ← hp.sameTables.rowIn, ← hbegun.tables.rowIn] at hviews hleased
      refine ⟨tx, hp.trans hp', hs₂.each hp'.after, fun hr =>
        ⟨⟨rfl, ?_, ?_, fun id => ?_⟩, hseen, hlisted, fun e he => ?_⟩⟩
      · simpa using horders
      · simpa using hletters
      · rcases hviews id with hsame | ⟨e, he, hid, hmapped⟩
        · exact Or.inl hsame
        · obtain ⟨hfound, -⟩ := hseen e he
          rw [← hid] at hmapped ⊢
          rw [hfound, Option.map_some] at hmapped
          exact Or.inr ⟨e, _, hfound, hmapped, he, rfl⟩
      · rw [hleased hr e he, (hseen e he).1]
        rfl
    rcases bind_eq_some_iff.mp hleases with ⟨_, s₂, hall, hpure⟩ | ⟨cause, hall, rfl⟩
    · cases hpure
      obtain ⟨tx, hp', htx, hfound⟩ := hstaged hall
      refine ⟨[], tx, Call.works_inStore hp', htx, rfl, fun found hr => ?_⟩
      cases hr
      exact hfound rfl
    · obtain ⟨tx, hp', htx, -⟩ := hstaged hall
      refine ⟨[], tx, Call.works_inStore hp', htx, rfl, fun found hr => ?_⟩
      cases hr
  · obtain ⟨tx, rows', hr, -, -⟩ := Store.claimDue_eq_some hclaim
    cases hr

/-- **One row is changed**, if it is there. -/
inductive Changes (w : World) (id : RowId) (f : OutboxRow → OutboxRow) :
    Except OperationError Unit → List OrderId → Transaction → Prop where
  /-- There is no such row. -/
  | missing (hnone : w.store.rows.find? id = none) :
    Changes w id f (.error (.store (.rowNotFound id))) [] (({} : Transaction).hold (.row id))
  /-- The row is changed. -/
  | changed {e : OutboxRow} (he : w.store.rows.find? id = some e) :
    Changes w id f (.ok ()) [] ((({} : Transaction).hold (.row id)).putRow id (f e))

/-- A row that changes does so as `f` says. -/
theorem Changes.rewrites {id : RowId} {f : OutboxRow → OutboxRow}
    {r : Except OperationError Unit} {called : List OrderId} {tx : Transaction}
    (hw : w.store.Orderly) (h : Changes w id f r called tx) :
    Rewrites w (fun e e' => e.id = id ∧ e' = f e) called tx := by
  cases h with
  | missing _ => exact rewrites_nothing w _ _
  | @changed e he =>
    refine ⟨rfl, by simp [Transaction.putRow], by simp [Transaction.putRow], fun row => ?_⟩
    rw [Store.rowIn_putRow]
    split
    · next hrow => exact Or.inr ⟨e, f e, hrow ▸ he, rfl, hw.rows.own he, rfl⟩
    · simp

/-- **One row is changed** in a transaction of its own. -/
theorem changeRow_ended {id : RowId} {f : OutboxRow → OutboxRow}
    {r : Except OperationError Unit} (hf : Store.KeepsId f) (hw : w.store.Orderly)
    (h : (Call.transact fun t => Call.inStore (Store.changeRow t id f)) w = some (r, w')) :
    Ended w (fun r called tx _ => Changes w id f r called tx) r w' := by
  refine Call.transact_ended hw (fun t => Call.around_inStore (Store.moves_changeRow _ _)) ?_ h
  intro t w₁ w₂ rb hbegun hrun
  obtain ⟨r₀, s', hs, rfl, rfl⟩ := Call.inStore_eq_some hrun
  have hs' := hbegun.orderly.changeRow hf hs
  obtain ⟨tx, ⟨hnone, rfl, hp⟩ | ⟨e, he, rfl, hp⟩⟩ := Store.changeRow_eq_some hs
  all_goals obtain rfl := hp.tx_eq hbegun.opened
  · rw [← hbegun.tables.rowIn, Store.rowIn_empty] at hnone
    exact ⟨[], _, Call.works_inStore hp, hs'.each hp.after, .missing hnone⟩
  · rw [← hbegun.tables.rowIn, Store.rowIn_empty] at he
    exact ⟨[], _, Call.works_inStore hp, hs'.each hp.after, .changed he⟩

/-- What a verdict makes of a row. -/
def ForwardingVerdict.change (now : Instant) : ForwardingVerdict → OutboxRow → OutboxRow
  | .sent, e => e.complete now
  | .putOff next error, e => e.postpone next error
  | .givenUp error, e => e.giveUp now error

theorem ForwardingVerdict.settle_eq (v : ForwardingVerdict) (t : TxId) (id : RowId)
    (now : Instant) : v.settle t id now = Store.changeRow t id (v.change now) := by
  cases v <;> rfl

theorem ForwardingVerdict.change_keepsId (v : ForwardingVerdict) (now : Instant) :
    Store.KeepsId (v.change now) := by
  intro e
  cases v <;> rfl

@[simp] theorem ForwardingVerdict.change_order (v : ForwardingVerdict) (now : Instant)
    (e : OutboxRow) : (v.change now e).order = e.order := by
  cases v <;> rfl

@[simp] theorem ForwardingVerdict.change_payload (v : ForwardingVerdict) (now : Instant)
    (e : OutboxRow) : (v.change now e).payload = e.payload := by
  cases v <;> rfl

/-- A row is done exactly if it was sent. -/
theorem Forwarder.change_processed_iff (r : Forwarder) (e row : OutboxRow) (now : Instant)
    (sent : Except TransportError Uuid) :
    ((r.verdict e now sent).change now row).status = .processed ↔ ∃ id, sent = .ok id := by
  cases sent with
  | ok id => exact iff_of_true rfl ⟨id, rfl⟩
  | error cause =>
    unfold verdict
    dsimp only
    split
    · exact iff_of_false nofun nofun
    · exact iff_of_false nofun nofun

/-- A row is given up on only if it was not sent, and there is a limit. -/
theorem Forwarder.of_change_failed {r : Forwarder} {e row : OutboxRow} {now : Instant}
    {sent : Except TransportError Uuid}
    (h : ((r.verdict e now sent).change now row).status = .failed) :
    r.maxAttempts.isSome ∧ ∃ cause, sent = .error cause := by
  cases sent with
  | ok id => cases h
  | error cause =>
    refine ⟨?_, cause, rfl⟩
    unfold verdict isExhausted at h
    cases hlimit : r.maxAttempts with
    | none =>
      rw [hlimit] at h
      cases h
    | some limit => rfl

/-- **A verdict is written down** in a transaction of its own. -/
theorem ForwardingVerdict.settle_changes {v : ForwardingVerdict} {id : RowId}
    {r : Except OperationError Unit} (hw : w.store.Orderly)
    (h : (Call.transact fun t => Call.inStore (v.settle t id now)) w = some (r, w')) :
    Ended w (fun r called tx _ => Changes w id (v.change now) r called tx) r w' := by
  simp only [ForwardingVerdict.settle_eq] at h
  exact changeRow_ended (v.change_keepsId now) hw h

theorem ForwardingVerdict.settle_ended {v : ForwardingVerdict} {id : RowId}
    {r : Except OperationError Unit} (hw : w.store.Orderly)
    (h : (Call.transact fun t => Call.inStore (v.settle t id now)) w = some (r, w')) :
    Ended w (fun _ called tx _ =>
      Rewrites w (fun e e' => e.id = id ∧ e' = v.change now e) called tx) r w' :=
  (settle_changes hw h).imp (·.rewrites hw)

/-- **Claimed rows are sent** one at a time: the first is sent and settled, and the
    others follow, unless its settlement fails. -/
theorem Forwarder.relayAll_cons {r : Forwarder} {e : OutboxRow} {rest : List OutboxRow}
    {report : ForwardingReport} {result : Except OperationError ForwardingReport}
    (h : r.relayAll now (e :: rest) report w = some (result, w')) :
    ∃ sent w₁ settled w₂, Call.trySend e.toMessage w = some (.ok sent, w₁) ∧
      (Call.transact fun t => Call.inStore ((r.verdict e now sent).settle t e.id now)) w₁ =
        some (settled, w₂) ∧
      ((settled = .ok () ∧ ∃ report', r.relayAll now rest report' w₂ = some (result, w')) ∨
        (∃ cause, settled = .error cause) ∧ w' = w₂) := by
  rcases bind_eq_some_iff.mp h with ⟨sent, w₁, hsend, hrest⟩ | ⟨cause, hsend, -⟩
  · obtain ⟨settled, w₂, hsettle, hend⟩ := outcome_bind_eq_some hrest
    refine ⟨sent, w₁, settled, w₂, hsend, hsettle, ?_⟩
    rcases settled with cause | _
    · cases hend
      exact Or.inr ⟨⟨cause, rfl⟩, rfl⟩
    · exact Or.inl ⟨rfl, _, hend⟩
  · -- Whether a message can be sent or not, there is an answer.
    rcases Call.trySend_eq_some hsend with ⟨hr, -⟩ | ⟨hr, -⟩
    · cases hr
    · cases hr

/-- **The transaction of a claimed row**: an attempt on its order, and then the
    row is settled as the attempt has ended. -/
inductive Settles (w : World) (p : OutboxProcessor) (e : OutboxRow) (now : Instant) :
    Except OperationError Outcome → List OrderId → Transaction → Prop where
  /-- The attempt has failed. -/
  | failed {cause : OperationError} {called : List OrderId} {tx : Transaction}
    (h : Tries w e.order p.maxRetries (.error cause) called tx) :
    Settles w p e now (.error cause) called tx
  /-- There is no such row. -/
  | missing {called : List OrderId} {tx : Transaction}
    (hnone : w.store.rows.find? e.id = none) :
    Settles w p e now (.error (.store (.rowNotFound e.id))) called tx
  /-- The row is settled. -/
  | settled {outcome : Outcome} {called : List OrderId} {tx : Transaction} {row : OutboxRow}
    (h : Tries w e.order p.maxRetries (.ok outcome) called tx)
    (hrow : w.store.rows.find? e.id = some row) :
    Settles w p e now (.ok outcome) called
      ((tx.hold (.row e.id)).putRow e.id (p.settled e now outcome row))

/-- **A claimed row is settled.** -/
theorem OutboxProcessor.settle_ended {p : OutboxProcessor} {e : OutboxRow}
    {r : Except OperationError Outcome} (hw : w.store.Orderly)
    (h : p.settle e now w = some (r, w')) :
    Ended w (fun r called tx _ => Settles w p e now r called tx) r w' := by
  have haround (t : TxId) : Moves Around (p.settleIn e now t) := by
    refine (around_processIn e.order).bind around_chains fun outcome => ?_
    rw [OutboxProcessor.settleRow_eq]
    exact (Call.around_inStore (Store.moves_changeRow _ _)).bind around_chains fun _ =>
      Moves.pure around_chains _
  refine Call.transact_ended hw haround ?_ h
  intro t w₁ w₂ rb hbegun hrun
  rcases OutboxProcessor.settleIn_eq_some hrun with
    ⟨outcome, w₃, r', hprocess, hsettle, rfl⟩ | ⟨cause, hprocess, rfl⟩
  · obtain ⟨called, tx, hworks, htx, htries⟩ := processIn_tries hbegun hprocess
    obtain ⟨r₀, s', hs, rfl, rfl⟩ := Call.inStore_eq_some hsettle
    have horderly := hbegun.orderly.progress hworks.store htx
    have hs' := horderly.changeRow (p.settled_keepsId e now outcome) hs
    have hseen : w₃.store.rowIn tx e.id = w.store.rows.find? e.id := by
      rw [← hworks.store.sameTables.rowIn, ← hbegun.tables.rowIn]
      exact htries.rowIn _
    obtain ⟨tx₀, ⟨hnone, rfl, hp⟩ | ⟨row, hrow, rfl, hp⟩⟩ := Store.changeRow_eq_some hs
    all_goals
      obtain rfl := hp.tx_eq hworks.store.after
      have hboth := hworks.trans (Call.works_inStore hp)
    · exact ⟨_, _, hboth, hs'.each hp.after, .missing (hseen ▸ hnone)⟩
    · refine ⟨_, _, hboth, hs'.each hp.after, ?_⟩
      rw [List.append_nil]
      exact .settled htries (hseen ▸ hrow)
  · obtain ⟨called, tx, hworks, htx, htries⟩ := processIn_tries hbegun hprocess
    exact ⟨called, tx, hworks, htx, .failed htries⟩

end rows

/-! ## Orders that come up -/

section announcing
variable {w w' w₁ w₂ : World} {t : TxId} {mode : PublishMode} {correlation : Option String}

/-- **An order comes up to be processed**: it is written, and with it, in outbox
    mode, a new row that announces it. -/
structure Raises (w : World) (mode : PublishMode) (o : Order) (correlation : Option String)
    (tx : Transaction) (ids : IdSupply) : Prop where
  order : ∀ i, w.store.orderIn tx i = if o.id = i then some o else w.store.orders.find? i
  row : mode = .outbox → ∃ k now, w.ids.next ≤ k ∧ k < ids.next ∧ ∀ row,
    w.store.rowIn tx row =
      if ⟨.versionFour k⟩ = row then some (.announcing ⟨.versionFour k⟩ o.id correlation now)
      else w.store.rows.find? row
  noRow : mode ≠ .outbox → ∀ row, w.store.rowIn tx row = w.store.rows.find? row

/-- An order that is announced in the transaction that writes it. -/
theorem raises_of_announced {o : Order} {tx tx' : Transaction} {ids : IdSupply} {now : Instant}
    (horder : ∀ i, w.store.orderIn tx i = if o.id = i then some o else w.store.orders.find? i)
    (hrows : ∀ row, w.store.rowIn tx row = w.store.rows.find? row)
    (h : Announced mode w.ids ids o.id correlation now tx tx') :
    Raises w mode o correlation tx' ids where
  order i := (Store.orderIn_congr (congrArg (·.find? i) h.orders)).trans (horder i)
  row := by
    intro hmode
    cases h with
    | row k _ hle hlt =>
      refine ⟨k, now, hle, hlt, fun row => ?_⟩
      rw [Store.rowIn_putRow, Store.rowIn_hold, hrows]
    | later hlater => exact absurd hmode hlater
  noRow := by
    intro hmode row
    cases h with
    | row k houtbox => exact absurd houtbox hmode
    | later => exact hrows row

/-- **An order is made known** after the commit, or it is not. -/
inductive Emits (mode : PublishMode) (order : OrderId) (correlation : Option String) (w : World) :
    Except OperationError Unit → World → Prop where
  /-- Its row says it already. -/
  | noted (hmode : mode = .outbox) : Emits mode order correlation w (.ok ()) w
  /-- It is in the queue in memory. -/
  | queued (hmode : mode = .inMemory) :
    Emits mode order correlation w (.ok ()) { w with queue := w.queue.push order }
  /-- A message about it was accepted. -/
  | sent {id : Uuid} {w' : World} (hmode : mode = .transport)
    (h : Call.trySend (Signal.toMessage ⟨order, correlation⟩) w = some (.ok (.ok id), w')) :
    Emits mode order correlation w (.ok ()) w'
  /-- The transport has refused. -/
  | untold {cause : TransportError} {w' : World} (hmode : mode = .transport)
    (h : Call.trySend (Signal.toMessage ⟨order, correlation⟩) w =
      some (.ok (.error cause), w')) :
    Emits mode order correlation w (.error (.unannounced order (.transport cause))) w'

/-- The only thing that goes wrong is that nobody was told. -/
theorem Emits.unannounced {order : OrderId} {r : Except OperationError Unit}
    (h : Emits mode order correlation w r w') (hr : r ≠ .ok ()) :
    ∃ cause, r = .error (.unannounced order cause) := by
  cases h with
  | untold => exact ⟨_, rfl⟩
  | noted | queued | sent => exact absurd rfl hr

theorem PublishMode.emitAll_emits {order : OrderId} {r : Except OperationError Unit}
    (h : mode.emitAll (mode.pending order correlation) w = some (r, w')) :
    Emits mode order correlation w r w' := by
  cases mode with
  | outbox =>
    cases h
    exact .noted rfl
  | inMemory =>
    cases h
    exact .queued rfl
  | transport =>
    have hsend : ((Call.send (Signal.toMessage ⟨order, correlation⟩) >>= fun _ => pure ()).mapError
        (.unannounced order) >>= fun _ => pure ()) w = some (r, w') := h
    -- The message is accepted or refused, and everything after that passes the answer on.
    rcases hsent : Call.trySend (Signal.toMessage ⟨order, correlation⟩) w with
      _ | ⟨_ | _ | id, w₁⟩
    · simp [Call.send, bind_apply, Attempt.mapError, hsent] at hsend
    · obtain ⟨hr, -⟩ | ⟨hr, -⟩ := Call.trySend_eq_some hsent
      · simp at hr
      · simp at hr
    · simp [Call.send, bind_apply, Attempt.mapError, Attempt.ofExcept, hsent] at hsend
      obtain ⟨rfl, rfl⟩ := hsend
      exact .untold rfl hsent
    · simp [Call.send, bind_apply, Attempt.mapError, Attempt.ofExcept, hsent] at hsend
      obtain ⟨rfl, rfl⟩ := hsend
      exact .sent rfl hsent

/-- **The transaction of an acceptance** writes the order with what announces it. -/
theorem PublishMode.stageAccept_ended {id : OrderId}
    {r : Except OperationError (OrderId × List Signal)} (hw : w.store.Orderly)
    (hid : id = ⟨.versionFour w.ids.next⟩)
    (h : Call.transact (fun t => do mode.stageAccept t correlation (← Call.now)) w =
      some (r, w')) :
    Ended w (fun r called tx ids => r = .ok (id, mode.pending id correlation) ∧
      called = [] ∧ w.ids.next < ids.next ∧
      (∀ i, w.store.letterIn tx i = w.store.deadLetters.find? i) ∧
      ∃ now, Raises w mode (.fresh id now) correlation tx ids) r w' := by
  have haround (t : TxId) :
      Moves Around
        (do mode.stageAccept t correlation (← Call.now) : Call (OrderId × List Signal)) :=
    Call.around_now.bind around_chains fun now => PublishMode.around_stageAccept
  refine Call.transact_ended hw haround ?_ h
  intro t w₁ w₂ rb hbegun hrun
  have hstage : mode.stageAccept t correlation w₁.now w₁ = some (rb, w₂) := hrun
  obtain ⟨tx, tx', ids', rfl, hlt, hids, hann, hworks⟩ := stageAccept_works hstage
  obtain rfl := hworks.store.tx_eq hbegun.opened
  rw [hbegun.ids, ← hid] at hann
  rw [hbegun.ids] at hlt
  refine ⟨[], tx', hworks, ?_, ?_, rfl, Nat.lt_of_lt_of_le hlt hids, ?_, w₁.now, ?_⟩
  · exact hann.orderly
      ((Transaction.orderly_empty.hold _).putOrder Transaction.mem_held_self)
  · rw [hbegun.ids, ← hid]
  · intro i
    rw [Store.letterIn_congr (congrArg (·.find? i) hann.deadLetters)]
    simp
  · refine raises_of_announced (o := .fresh id w₁.now) ?_ ?_ (hann.mono (Nat.le_of_lt hlt))
    · intro i
      rw [Store.orderIn_putOrder, Store.orderIn_hold, Store.orderIn_empty]
    · intro row
      simp

/-- **An order is accepted**: the store refuses, or a new order comes up and is
    made known or not. -/
theorem PublishMode.accept_ends {r : Except OperationError OrderId} (hw : w.store.Orderly)
    (h : mode.accept correlation w = some (r, w')) :
    (r = .error (.store Store.offline) ∧ ¬ w.Steady ∧ ∃ called, Wrote w called {} w') ∨
      ∃ id now tx w₁ r₁, id = ⟨.versionFour w.ids.next⟩ ∧ w.ids.next < w₁.ids.next ∧
        Wrote w [] tx w₁ ∧ Raises w mode (.fresh id now) correlation tx w₁.ids ∧
        (∀ i, w.store.letterIn tx i = w.store.deadLetters.find? i) ∧
        Emits mode id correlation w₁ r₁ w' ∧ r = r₁.map fun _ => id := by
  obtain ⟨id, hid⟩ : ∃ id : OrderId, id = ⟨.versionFour w.ids.next⟩ := ⟨_, rfl⟩
  rcases bind_eq_some_iff.mp h with ⟨⟨id', signals⟩, w₁, htransact, hrest⟩ | ⟨e, htransact, rfl⟩
  · cases stageAccept_ended hw hid htransact with
    | @committed _ called tx _ hQ hwrote =>
      obtain ⟨hanswer, rfl, hlt, hletters, now, hraises⟩ := hQ
      cases hanswer
      rcases bind_eq_some_iff.mp hrest with ⟨_, w₂, hemit, hpure⟩ | ⟨e, hemit, rfl⟩
      · cases hpure
        exact Or.inr ⟨id, now, tx, w₁, _, hid, hlt, hwrote, hraises, hletters,
          emitAll_emits hemit, rfl⟩
      · exact Or.inr ⟨id, now, tx, w₁, _, hid, hlt, hwrote, hraises, hletters,
          emitAll_emits hemit, rfl⟩
  · cases stageAccept_ended hw hid htransact with
    | failed hQ => simp at hQ
    | refused hwrote hsteady => exact Or.inl ⟨rfl, hsteady, _, hwrote⟩

/-- **The transaction of a readmission** writes the order with what announces it. -/
theorem PublishMode.stageReadmit_ended {id : OrderId} {r : Except OperationError (List Signal)}
    (hw : w.store.Orderly)
    (h : Call.transact (fun t => do mode.stageReadmit t id (← Call.now)) w = some (r, w')) :
    Ended w (fun r called tx ids => (∀ order cause, r ≠ .error (.unannounced order cause)) ∧
      ∀ signals, r = .ok signals → signals = mode.pending id none ∧ called = [] ∧
        ∃ o now, w.store.orders.find? id = some o ∧ o.id = id ∧ o.status = .failed ∧
          Raises w mode (o.moved now (.reset readmitReason)) none tx ids) r w' := by
  have haround (t : TxId) :
      Moves Around (do mode.stageReadmit t id (← Call.now) : Call (List Signal)) :=
    Call.around_now.bind around_chains fun now => PublishMode.around_stageReadmit id
  refine Call.transact_ended hw haround ?_ h
  intro t w₁ w₂ rb hbegun hrun
  have hseen : w₁.store.orderIn {} id = w.store.orders.find? id := by
    rw [← hbegun.tables.orderIn]
    rfl
  have hstage : mode.stageReadmit t id w₁.now w₁ = some (rb, w₂) := hrun
  obtain ⟨tx, htx, ⟨-, rfl, rfl⟩ | ⟨-, hfound⟩⟩ := stageReadmit_eq_some hstage
  · exact ⟨[], {}, (elsewhere_chains.refl _).works hbegun.opened, Transaction.orderly_empty,
      by simp, by simp⟩
  obtain ⟨tx, ⟨-, rfl, hworks⟩ | ⟨o, ho, hcases⟩⟩ := readmitFound_works hbegun.orderly hfound
  · obtain rfl := hworks.store.tx_eq hbegun.opened
    exact ⟨[], _, hworks, Transaction.orderly_empty.hold _, by simp, by simp⟩
  rcases hcases with ⟨-, ⟨e, rfl, hknown⟩, hworks⟩ | ⟨-, hid, hstatus, tx', rfl, hann, hworks⟩
  · obtain rfl := hworks.store.tx_eq hbegun.opened
    exact ⟨[], _, hworks, Transaction.orderly_empty.withoutLetter id, by simpa using hknown,
      by simp⟩
  · obtain rfl := hworks.store.tx_eq hbegun.opened
    rw [hbegun.ids] at hann
    have hheld : LockKey.order o.id ∈ (({} : Transaction).withoutLetter id).held :=
      hid ▸ order_mem_held_withoutLetter
    refine ⟨[], tx', hworks, ?_, by simp, ?_⟩
    · exact hann.orderly ((Transaction.orderly_empty.withoutLetter id).putOrder
        (by simpa using hheld))
    · intro signals hsignals
      cases hsignals
      refine ⟨rfl, rfl, o, w₁.now, hseen ▸ ho, hid, hstatus, ?_⟩
      refine raises_of_announced (o := o.moved w₁.now (.reset readmitReason)) ?_ ?_
        (by rw [Order.moved_id, hid]; exact hann)
      · intro i
        simp
      · intro row
        simp

/-- **An order is readmitted**: there is none to readmit or the store refuses, or
    the order comes up again and is made known or not. -/
theorem PublishMode.readmit_ends {id : OrderId} {r : Except OperationError Unit}
    (hw : w.store.Orderly) (h : mode.readmit id w = some (r, w')) :
    (∃ e called, r = .error e ∧ (∀ order cause, e ≠ .unannounced order cause) ∧
        Wrote w called {} w') ∨
      ∃ o now tx w₁, w.store.orders.find? id = some o ∧ o.id = id ∧ o.status = .failed ∧
        Wrote w [] tx w₁ ∧ Raises w mode (o.moved now (.reset readmitReason)) none tx w₁.ids ∧
        Emits mode id none w₁ r w' := by
  rcases bind_eq_some_iff.mp h with ⟨signals, w₁, htransact, hemit⟩ | ⟨e, htransact, rfl⟩
  · cases stageReadmit_ended hw htransact with
    | @committed _ called tx _ hQ hwrote =>
      obtain ⟨rfl, rfl, o, now, ho, hid, hstatus, hraises⟩ := hQ.2 signals rfl
      exact Or.inr ⟨o, now, tx, w₁, ho, hid, hstatus, hwrote, hraises, emitAll_emits hemit⟩
  · cases stageReadmit_ended hw htransact with
    | failed hQ hwrote => exact Or.inl ⟨e, _, rfl, by simpa using hQ.1, hwrote⟩
    | refused hwrote _ => exact Or.inl ⟨_, _, rfl, by simp, hwrote⟩

end announcing

end OrderFlow
