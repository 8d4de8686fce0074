import OrderFlow.Proofs.Run.Relay
import OrderFlow.Proofs.Sole
import OrderFlow.Proofs.Store.Reads

/-! # One poll of the outbox

    A poll that processes orders claims some rows and settles them one after
    the other, each in a transaction that also holds its order.  While the
    processor works it may take the store down; then the transaction is
    refused, and the poll ends there.  So the rows that it has claimed fall
    into two parts: those at the front are settled, and those that are left
    still have their lease (`OutboxProcessor.Course`).

    The store is down only if a commit was refused.  That is why the second
    transaction about a row whose order is unknown always goes through: the
    processor was not called in the first one. -/

namespace OrderFlow

open World Attempt

/-! ## Rows and orders in the end -/

/-- **What a claimed row becomes**, by how the attempt on its order has ended, or
    `none` if there is no such order. -/
def OutboxProcessor.settledAs (p : OutboxProcessor) (now : Instant) (e : OutboxRow) :
    Option Outcome → OutboxRow
  | some .processed =>
    { e with status := .processed, lockedAt := none, lockedBy := none, processedAt := some now }
  | some .retry =>
    { e with
      status := .pending
      lockedAt := none
      lockedBy := none
      attempts := e.attempts + 1
      nextAttemptAt := now.later (p.retry.delayBefore (e.attempts + 1))
      lastError := some "retry" }
  | some .failed =>
    { e with
      status := .failed
      lockedAt := none
      lockedBy := none
      processedAt := some now
      lastError := some "failed" }
  | none =>
    { e with
      status := .failed
      lockedAt := none
      lockedBy := none
      processedAt := some now
      lastError := some ("Order not found: " ++ toString e.order) }

/-- **What the order is then**, if there is one. -/
def Order.GoesWith (ending : Option Outcome) (order : Option Order) : Prop :=
  match ending with
  | some .processed => ∃ o, order = some o ∧ o.status = .processed
  | some .retry => ∃ o, order = some o ∧ o.status = .pending
  | some .failed => ∃ o, order = some o ∧ o.status ≠ .pending ∧ o.status ≠ .processed
  | none => order = none

section attempts
variable {w : World} {id : OrderId} {m : Nat} {called : List OrderId} {tx : Transaction}

/-- The order as the attempt leaves it. -/
theorem Tries.goesWith {outcome : Outcome} (h : Tries w id m (.ok outcome) called tx) :
    Order.GoesWith (some outcome) (w.store.orderIn tx id) := by
  cases h with
  | @passed o ho hstatus =>
    rw [Store.orderIn_hold, Store.orderIn_empty, ho]
    unfold Order.passedOver
    split
    · next hprocessed => exact ⟨o, rfl, hprocessed⟩
    · next hprocessed => exact ⟨o, rfl, hstatus, hprocessed⟩
  | @tried o now failure ho hid =>
    rw [Store.orderIn_concluded, if_pos hid]
    unfold Order.outcome Order.after
    cases failure with
    | none => exact ⟨_, rfl, rfl⟩
    | some reason =>
      dsimp only
      split
      · exact ⟨_, rfl, rfl⟩
      · exact ⟨_, rfl, nofun, nofun⟩

/-- All other orders are as they were. -/
theorem Tries.orderIn_other {r : Except OperationError Outcome} (h : Tries w id m r called tx)
    {i : OrderId} (hi : id ≠ i) : w.store.orderIn tx i = w.store.orders.find? i := by
  cases h with
  | unknown | passed => simp
  | tried ho hid => simp [Store.orderIn_concluded, hid, hi]

/-- The order is held until the transaction ends. -/
theorem Tries.held {r : Except OperationError Outcome} (h : Tries w id m r called tx) :
    LockKey.order id ∈ tx.held := by
  cases h with
  | unknown | passed => exact Transaction.mem_held_self
  | @tried o now failure ho hid =>
    have hheld : LockKey.order id ∈ (({} : Transaction).hold (.order id)).held :=
      Transaction.mem_held_self
    unfold Transaction.concluded
    cases failure with
    | none => exact hheld
    | some reason =>
      dsimp only
      split
      · exact hheld
      · exact Transaction.mem_held_of_mem hheld

end attempts

/-! ## One row -/

/-- **The calls that settle a row**: one transaction, or a second one if the first has
    found no order. -/
inductive OutboxProcessor.Handles (p : OutboxProcessor) (now : Instant) (e : OutboxRow)
    (w : World) : Option Outcome → World → Prop where
  | attempted {outcome : Outcome} {w' : World} (h : p.settle e now w = some (.ok outcome, w')) :
    Handles p now e w (some outcome) w'
  | unknown {w₁ w' : World} (h : p.settle e now w = some (.error (.orderNotFound e.order), w₁))
    (hgive : OutboxProcessor.giveUp e now (.orderNotFound e.order) w₁ = some (.ok (), w')) :
    Handles p now e w none w'

/-- **A row is settled**: one commit writes it, and with that commit its order is as
    the row says.  An attempt holds the order until then. -/
structure OutboxProcessor.Settlement (p : OutboxProcessor) (now : Instant) (e : OutboxRow)
    (w : World) (ending : Option Outcome) (w' : World) : Prop where
  handled : p.Handles now e w ending w'
  committed : ∃ (w₀ : World) (called : List OrderId) (tx : Transaction),
    w.store.SameTables w₀.store ∧ w₀.Wrote called tx w' ∧
      tx.rows.find? e.id = some (p.settledAs now e ending) ∧
      (ending.isSome → LockKey.order e.order ∈ tx.held)
  row : w'.store.rows.find? e.id = some (p.settledAs now e ending)
  order : Order.GoesWith ending (w'.store.orders.find? e.order)
  otherRows : ∀ id, e.id ≠ id → w'.store.rows.find? id = w.store.rows.find? id
  otherOrders : ∀ id, e.order ≠ id → w'.store.orders.find? id = w.store.orders.find? id

section settlements
variable {p : OutboxProcessor} {now : Instant} {e : OutboxRow} {w w' : World}

/-- The row is under its lease and nothing else about it has changed, so what it
    becomes is known from how it was claimed. -/
theorem OutboxProcessor.settled_lease (p : OutboxProcessor) (now : Instant) (e : OutboxRow)
    (outcome : Outcome) (name : String) :
    p.settled e now outcome (e.lease now name) = p.settledAs now e (some outcome) := by
  cases outcome <;> rfl

/-- **An attempt that is committed.** -/
theorem OutboxProcessor.settlement {outcome : Outcome} {name : String} (hw : w.store.Orderly)
    (hrow : w.store.rows.find? e.id = some (e.lease now name))
    (h : p.settle e now w = some (.ok outcome, w')) :
    p.Settlement now e w (some outcome) w' := by
  cases OutboxProcessor.settle_ended hw h with
  | committed hsettles hwrote =>
    cases hsettles with
    | @settled _ called tx row htries hfound =>
      rw [hrow, Option.some.injEq] at hfound
      subst hfound
      rw [p.settled_lease] at hwrote
      have horder (i : OrderId) : w'.store.orders.find? i = w.store.orderIn tx i := by
        rw [hwrote.orders, Store.orderIn_putRow, Store.orderIn_hold]
      refine ⟨.attempted h, ⟨w, _, _, ⟨rfl, rfl, rfl⟩, hwrote, ?_, fun _ => ?_⟩, ?_, ?_, ?_, ?_⟩
      · simp [Transaction.putRow]
      · simpa using Transaction.mem_held_of_mem htries.held
      · rw [hwrote.rows, Store.rowIn_putRow, if_pos rfl]
      · rw [horder]
        exact htries.goesWith
      · intro id hid
        rw [hwrote.rows, Store.rowIn_putRow, if_neg hid, Store.rowIn_hold]
        exact htries.rowIn id
      · intro id hid
        rw [horder]
        exact htries.orderIn_other hid

/-- **An attempt that fails** writes nothing: there is no such order, or the store has
    refused. -/
theorem OutboxProcessor.settle_failed {cause : OperationError} {name : String}
    (hw : w.store.Orderly) (hrow : w.store.rows.find? e.id = some (e.lease now name))
    (h : p.settle e now w = some (.error cause, w')) : w.store.SameTables w'.store ∧
      ((cause = .orderNotFound e.order ∧ w.store.orders.find? e.order = none) ∨
        cause = .store Store.offline) := by
  cases OutboxProcessor.settle_ended hw h with
  | refused hwrote _ => exact ⟨hwrote.tables, Or.inr rfl⟩
  | failed hsettles hwrote =>
    refine ⟨hwrote.tables, Or.inl ?_⟩
    cases hsettles with
    | missing hnone =>
      rw [hrow] at hnone
      cases hnone
    | failed htries =>
      cases htries with
      | unknown hnone => exact ⟨rfl, hnone⟩

/-- **A row without an order** is given up on while the store is available. -/
theorem World.Idle.giveUp {name : String} (hw : w.Idle true)
    (hrow : w.store.rows.find? e.id = some (e.lease now name)) :
    ∃ w' tx, OutboxProcessor.giveUp e now (.orderNotFound e.order) w = some (.ok (), w') ∧
      w'.Idle true ∧ w.Wrote [] tx w' ∧ tx.orders = [] ∧
      ∀ id, tx.rows.find? id = if e.id = id then some (p.settledAs now e none) else none := by
  have hkeeps : Store.KeepsId fun row =>
      row.giveUp now (OperationError.orderNotFound e.order).message := fun _ => rfl
  obtain ⟨r, w', hgive, hidle, hend⟩ :=
    hw.transact_inStore fun t => Store.total_changeRow (t := t) e.id hkeeps
  have hended := changeRow_ended hkeeps hw.orderly hgive
  have hgive : OutboxProcessor.giveUp e now (.orderNotFound e.order) w = some (r, w') := hgive
  refine ⟨w', ?_⟩
  cases hended with
  | committed hchanges hwrote =>
    cases hchanges with
    | @changed row hfound =>
      rw [hrow, Option.some.injEq] at hfound
      subst hfound
      refine ⟨_, hgive, hidle, hwrote, by simp [Transaction.putRow], fun id => ?_⟩
      simp only [Transaction.putRow, Transaction.hold_rows, Table.find?_put]
      rfl
  | failed hchanges _ =>
    cases hchanges with
    | missing hnone =>
      rw [hrow] at hnone
      cases hnone
  | refused _ _ =>
    -- The row is there and so is the store, so nobody refuses.
    rcases hend with ⟨-, _, hok⟩ | ⟨hfalse, -⟩ | ⟨_, rfl, hmissing⟩
    · cases hok
    · cases hfalse
    · cases hmissing

/-- **A row whose order is unknown.** -/
theorem World.Idle.settlement_unknown {w₁ : World} {name : String} (hw : w₁.Idle true)
    (hrow : w.store.rows.find? e.id = some (e.lease now name))
    (hnone : w.store.orders.find? e.order = none) (hsame : w.store.SameTables w₁.store)
    (h : p.settle e now w = some (.error (.orderNotFound e.order), w₁)) :
    ∃ w', OutboxProcessor.giveUp e now (.orderNotFound e.order) w₁ = some (.ok (), w') ∧
      w'.Idle true ∧ p.Settlement now e w none w' := by
  have hrow₁ : w₁.store.rows.find? e.id = some (e.lease now name) := by rw [← hsame.rows, hrow]
  obtain ⟨w', tx, hgive, hidle, hwrote, horders, hrows⟩ := hw.giveUp (p := p) hrow₁
  have hself : tx.rows.find? e.id = some (p.settledAs now e none) := by rw [hrows, if_pos rfl]
  have horder (id : OrderId) : w'.store.orders.find? id = w.store.orders.find? id := by
    rw [hwrote.orders, hsame.orders]
    exact Store.orderIn_of_unstaged (by rw [horders]; rfl) _
  refine ⟨w', hgive, hidle, .unknown h hgive, ⟨w₁, _, tx, hsame, hwrote, hself, nofun⟩, ?_, ?_, ?_,
    fun id _ => horder id⟩
  · rw [hwrote.rows]
    unfold Store.rowIn
    rw [hself, Option.some_or]
  · exact (horder _).trans hnone
  · intro id hid
    rw [hwrote.rows, hsame.rows]
    exact Store.rowIn_of_unstaged (by rw [hrows, if_neg hid]) _

end settlements

/-! ## All rows -/

/-- **The course of a poll** over the rows that it has claimed, and how those at the
    front have ended.  Either all are settled, or the store fails at the first that
    is not; nothing is written there. -/
inductive OutboxProcessor.Course (p : OutboxProcessor) (now : Instant) :
    World → List OutboxRow → List (Option Outcome) → World → Prop where
  | done {w : World} : Course p now w [] [] w
  | settled {w w₁ w' : World} {e : OutboxRow} {rest : List OutboxRow} {ending : Option Outcome}
    {endings : List (Option Outcome)} (h : p.Settlement now e w ending w₁)
    (hrest : Course p now w₁ rest endings w') :
    Course p now w (e :: rest) (ending :: endings) w'
  | aborted {w w' : World} {e : OutboxRow} {rest : List OutboxRow} {cause : StoreError}
    (h : p.settle e now w = some (.error (.store cause), w'))
    (hsame : w.store.SameTables w'.store) : Course p now w (e :: rest) [] w'

section courses
variable {p : OutboxProcessor} {now : Instant} {w w' : World} {rows : List OutboxRow}
  {endings : List (Option Outcome)}

namespace OutboxProcessor.Course

theorem length_le (h : p.Course now w rows endings w') : endings.length ≤ rows.length := by
  induction h with
  | done => exact Nat.le_refl _
  | settled _ _ ih => exact Nat.succ_le_succ ih
  | aborted => exact Nat.zero_le _

/-- Rows that were not claimed stay as they are. -/
theorem otherRows (h : p.Course now w rows endings w') {id : RowId}
    (hid : id ∉ rows.map (·.id)) : w'.store.rows.find? id = w.store.rows.find? id := by
  induction h with
  | done => rfl
  | settled hfirst _ ih =>
    rw [List.map_cons, List.mem_cons, not_or] at hid
    rw [ih hid.2, hfirst.otherRows id (Ne.symm hid.1)]
  | aborted _ hsame => rw [hsame.rows]

/-- A row that is settled stays so, since it was claimed once. -/
theorem settledRows (h : p.Course now w rows endings w') (hdistinct : (rows.map (·.id)).Nodup) :
    ∀ x ∈ rows.zip endings, w'.store.rows.find? x.1.id = some (p.settledAs now x.1 x.2) := by
  induction h with
  | done => simp
  | settled hfirst hrest ih =>
    rw [List.map_cons, List.nodup_cons] at hdistinct
    intro x hx
    rw [List.zip_cons_cons, List.mem_cons] at hx
    rcases hx with rfl | hx
    · rw [hrest.otherRows hdistinct.1, hfirst.row]
    · exact ih hdistinct.2 x hx
  | aborted => simp

/-- The rows that are left are not touched. -/
theorem leftRows (h : p.Course now w rows endings w') (hdistinct : (rows.map (·.id)).Nodup) :
    ∀ e ∈ rows.drop endings.length, w'.store.rows.find? e.id = w.store.rows.find? e.id := by
  induction h with
  | done => simp
  | settled hfirst hrest ih =>
    rw [List.map_cons, List.nodup_cons] at hdistinct
    intro e he
    rw [List.length_cons, List.drop_succ_cons] at he
    have hother := List.mem_map_of_mem (f := (·.id)) (List.mem_of_mem_drop he)
    rw [ih hdistinct.2 e he]
    exact hfirst.otherRows _ fun heq => hdistinct.1 (heq ▸ hother)
  | aborted _ hsame =>
    intro e _
    rw [hsame.rows]

/-- If not all rows are settled, the store has failed at the first that is not. -/
theorem brokenOff (h : p.Course now w rows endings w') (hless : endings.length < rows.length) :
    ∃ e cause w₀, rows[endings.length]? = some e ∧
      p.settle e now w₀ = some (.error (.store cause), w') ∧
      w₀.store.SameTables w'.store := by
  induction h with
  | done => exact absurd hless (Nat.lt_irrefl 0)
  | settled _ _ ih =>
    obtain ⟨e, cause, w₀, he, hfailed, hsame⟩ := ih (Nat.lt_of_succ_lt_succ hless)
    exact ⟨e, cause, w₀, he, hfailed, hsame⟩
  | aborted hfailed hsame => exact ⟨_, _, _, rfl, hfailed, hsame⟩

end OutboxProcessor.Course

/-- **The report counts what was done.**  `n` rows were claimed; if not all of them are
    settled, there is one more error. -/
def ProcessingReport.tally (r : ProcessingReport) (n : Nat) (endings : List (Option Outcome)) :
    ProcessingReport :=
  { r with
    processed := r.processed + endings.count (some .processed)
    retried := r.retried + endings.count (some .retry)
    failed := r.failed + endings.count (some .failed)
    errors := r.errors + endings.count none + if endings.length < n then 1 else 0 }

theorem ProcessingReport.tally_count (r : ProcessingReport) (outcome : Outcome) (n : Nat)
    (endings : List (Option Outcome)) :
    (r.count outcome).tally n endings = r.tally (n + 1) (some outcome :: endings) := by
  cases outcome <;> simp [ProcessingReport.count, ProcessingReport.tally, Nat.add_right_comm,
    Nat.add_assoc, Nat.add_comm 1]

theorem ProcessingReport.tally_error (r : ProcessingReport) (n : Nat)
    (endings : List (Option Outcome)) :
    ({ r with errors := r.errors + 1 } : ProcessingReport).tally n endings =
      r.tally (n + 1) (none :: endings) := by
  simp [ProcessingReport.tally, Nat.add_assoc, Nat.add_comm 1]

/-- Every row that is settled is counted once. -/
theorem length_endings (endings : List (Option Outcome)) : endings.length =
    endings.count (some .processed) + endings.count (some .retry) +
      endings.count (some .failed) + endings.count none := by
  induction endings with
  | nil => rfl
  | cons ending rest ih =>
    rcases ending with _ | _ | _ | _ <;> simp [ih] <;> omega

section calls
variable {e : OutboxRow} {rest : List OutboxRow} {report : ProcessingReport} {w₁ w₂ : World}

theorem OutboxProcessor.settleAll_of_ok {outcome : Outcome}
    (h : p.settle e now w = some (.ok outcome, w₁)) :
    p.settleAll now (e :: rest) report w = p.settleAll now rest (report.count outcome) w₁ := by
  simp only [settleAll, bind_apply, Attempt.outcome, h]

/-- An order that is unknown is no reason to stop. -/
theorem OutboxProcessor.settleAll_of_lasting {cause : OperationError}
    {given : Except OperationError Unit} (hlasting : cause.isLasting = true)
    (h : p.settle e now w = some (.error cause, w₁))
    (hgive : OutboxProcessor.giveUp e now cause w₁ = some (given, w₂)) :
    p.settleAll now (e :: rest) report w =
      p.settleAll now rest { report with errors := report.errors + 1 } w₂ := by
  simp only [settleAll, bind_apply, Attempt.outcome, h, hlasting, if_true, hgive]

theorem OutboxProcessor.settleAll_of_passing {cause : OperationError}
    (hlasting : cause.isLasting = false) (h : p.settle e now w = some (.error cause, w₁)) :
    p.settleAll now (e :: rest) report w =
      some (.ok { report with errors := report.errors + 1 }, w₁) := by
  simp only [settleAll, bind_apply, Attempt.outcome, h, hlasting, Bool.false_eq_true, if_false,
    pure_apply]

end calls

/-- **Claimed rows are settled** one after the other, and the report counts them. -/
theorem OutboxProcessor.settleAll_course (hw : w.Idle true)
    (hleased : w.Leased p.claimant now rows) (report : ProcessingReport) :
    ∃ endings w', p.settleAll now rows report w =
        some (.ok (report.tally rows.length endings), w') ∧ p.Course now w rows endings w' := by
  induction rows generalizing w report with
  | nil => exact ⟨[], w, by simp [settleAll, ProcessingReport.tally], .done⟩
  | cons e rest ih =>
    have hrow := hleased.rows e List.mem_cons_self
    -- The transaction of the first row.
    obtain ⟨r, w₁, b, hsettle, hw₁, hcloses⟩ := hw.settle p e now
    cases r with
    | ok outcome =>
      cases hcloses
      have hfirst := settlement hw.orderly hrow hsettle
      obtain ⟨endings, w', hrest, hcourse⟩ := ih hw₁ (hleased.rest hfirst.otherRows) _
      rw [ProcessingReport.tally_count] at hrest
      exact ⟨_, w', (settleAll_of_ok hsettle).trans hrest, .settled hfirst hcourse⟩
    | error cause =>
      obtain ⟨hsame, ⟨rfl, hnone⟩ | rfl⟩ := settle_failed hw.orderly hrow hsettle
      · -- The processor was not called, so the store is still there.
        have hb : b = true := by
          cases hcloses with
          | failed hlasting => exact hlasting rfl
        subst hb
        obtain ⟨w₂, hgive, hw₂, hfirst⟩ := hw₁.settlement_unknown hrow hnone hsame hsettle
        obtain ⟨endings, w', hrest, hcourse⟩ := ih hw₂ (hleased.rest hfirst.otherRows) _
        rw [ProcessingReport.tally_error] at hrest
        exact ⟨_, w', (settleAll_of_lasting rfl hsettle hgive).trans hrest,
          .settled hfirst hcourse⟩
      · refine ⟨[], w₁, (settleAll_of_passing rfl hsettle).trans ?_, .aborted hsettle hsame⟩
        simp [ProcessingReport.tally]

end courses

/-! ## The claimed rows -/

section claims
variable {c : Claimant} {now : Instant} {w w' : World} {rows : List OutboxRow}

/-- Rows that are leased were claimed at the begin of the transaction. -/
theorem Claimant.lease_claims (hw : w.store.Orderly) (h : c.lease now w = some (.ok rows, w')) :
    ∃ t w₁ s, Begun w t w₁ ∧
      Store.claimDue t c.batchSize now w₁.store = some (.ok rows, s) := by
  rcases Call.transact_eq_some h with ⟨e, -, hr⟩ | ⟨t, w₁, hstart, hrest⟩
  · cases hr
  have hbegun := Call.start_begun hw hstart
  rcases hrest with ⟨found, w₂, r, hrun, -, hr⟩ | ⟨e, w₂, -, -, hr⟩
  · cases r with
    | error => cases hr
    | ok =>
      cases hr
      obtain ⟨r₀, s', hs, hr, -⟩ := Call.inStore_eq_some hrun
      cases r₀ with
      | error => cases hr
      | ok found =>
        cases hr
        obtain ⟨claimed, s₁, hclaim, hleases⟩ := bind_eq_ok_iff.mp hs
        obtain ⟨_, s₂, -, hpure⟩ := bind_eq_ok_iff.mp hleases
        cases hpure
        exact ⟨t, w₁, s₁, hbegun, hclaim⟩
  · cases hr

/-- **Rows are leased in their order**, the oldest first. -/
theorem Claimant.lease_sorted (hw : w.store.Orderly) (h : c.lease now w = some (.ok rows, w')) :
    rows.Pairwise fun a b => a.listingKey < b.listingKey := by
  obtain ⟨t, w₁, s, hbegun, hclaim⟩ := Claimant.lease_claims hw h
  -- They are some of the rows that the transaction lists.
  unfold Store.claimDue at hclaim
  rw [hbegun.opened] at hclaim
  cases hclaim
  exact (hbegun.orderly.rowsIn_sorted Transaction.orderly_empty).sublist
    ((List.take_sublist _ _).trans List.filter_sublist)

theorem Claimant.claim_sorted {released : Nat} (hw : w.store.Orderly)
    (h : c.claim now w = some (.ok (released, rows), w')) :
    rows.Pairwise fun a b => a.listingKey < b.listingKey := by
  obtain ⟨freed, w₁, hrelease, hrest⟩ := bind_eq_ok_iff.mp h
  obtain ⟨found, w₂, hlease, hpure⟩ := bind_eq_ok_iff.mp hrest
  cases hpure
  exact lease_sorted (Claimant.release_ended hw hrelease).orderly hlease

end claims

/-! ## One poll -/

/-- **What a poll does** with the rows that it has claimed, between `w` and `w'`: it
    settles them in their order, the oldest first, up to one at which the store
    fails, or to the last. -/
structure OutboxProcessor.Cycle (p : OutboxProcessor) (now : Instant) (w : World)
    (rows : List OutboxRow) (endings : List (Option Outcome)) (w' : World) : Prop where
  sorted : rows.Pairwise fun a b => a.listingKey < b.listingKey
  /-- Each row at the front is settled by a commit of its own. -/
  course : p.Course now w rows endings w'
  length_le : endings.length ≤ rows.length
  /-- It stays as it was settled. -/
  settled : ∀ x ∈ rows.zip endings, w'.store.rows.find? x.1.id = some (p.settledAs now x.1 x.2)
  /-- The attempt on the order of the next row has failed and has written nothing. -/
  brokenOff : endings.length < rows.length → ∃ e cause w₀, rows[endings.length]? = some e ∧
    p.settle e now w₀ = some (.error (.store cause), w') ∧ w₀.store.SameTables w'.store
  /-- That row and those after it are under their lease. -/
  left : ∀ e ∈ rows.drop endings.length, w'.store.rows.find? e.id = some { e with
    status := .processing
    lockedAt := some now
    lockedBy := some p.claimant.name }

/-- **One poll settles the rows at the front of those that it claims, and reports
    exactly that.**
    No transaction is open, and only the processor may take the store down or bring
    it up while it works.  Then the poll does not wait, and it fails only if the store
    was not available.  Otherwise it settles the rows that it has claimed up to one at
    which the store fails, or to the last, and the report says how many have ended in
    each way. -/
theorem OutboxProcessor.leading_rows_settled {p : OutboxProcessor} {now : Instant} {w : World}
    (horderly : w.store.Orderly) (hopened : w.store.opened = [])
    (hothers : w.disturbances = []) :
    ∃ r w', p.poll now w = some (r, w') ∧
      (w.store.available = true → ∃ report, r = .ok report) ∧
      ∀ report, r = .ok report → ∃ released rows w₁ endings,
        p.claimant.claim now w = some (.ok (released, rows), w₁) ∧
        p.Cycle now w₁ rows endings w' ∧
        report = {
          released := released
          claimed := rows.length
          processed := endings.count (some .processed)
          retried := endings.count (some .retry)
          failed := endings.count (some .failed)
          errors := endings.count none + if endings.length < rows.length then 1 else 0 } := by
  have hidle : w.Idle w.store.available := ⟨horderly, by simp [hopened, Table.find?], rfl, hothers⟩
  obtain ⟨r, w₁, hclaim, hw₁, ⟨hb, ⟨released, rows⟩, rfl⟩ | ⟨hb, e, rfl⟩⟩ :=
    hidle.claim p.claimant now
  · rw [hb] at hw₁
    have hleased := (Claimant.claim_fair horderly hclaim).2 released rows rfl
    obtain ⟨endings, w', hall, hcourse⟩ :=
      settleAll_course hw₁ hleased { released := released, claimed := rows.length }
    have hcycle : p.Cycle now w₁ rows endings w' := {
      sorted := Claimant.claim_sorted horderly hclaim
      course := hcourse
      length_le := hcourse.length_le
      settled := hcourse.settledRows hleased.distinct
      brokenOff := hcourse.brokenOff
      left := by
        intro e he
        rw [hcourse.leftRows hleased.distinct e he, hleased.rows e (List.mem_of_mem_drop he)]
        rfl }
    refine ⟨_, w', bind_eq_ok_iff.mpr ⟨_, w₁, hclaim, hall⟩, fun _ => ⟨_, rfl⟩, ?_⟩
    intro report hreport
    cases hreport
    exact ⟨released, rows, w₁, endings, hclaim, hcycle, by simp [ProcessingReport.tally]⟩
  · refine ⟨_, w₁, bind_eq_some_iff.mpr (Or.inr ⟨e, hclaim, rfl⟩), fun htrue => ?_, ?_⟩
    · rw [htrue] at hb
      cases hb
    · intro report hreport
      cases hreport

/-- Five rows are due, and there is no order for the second one.  The processor
    succeeds, then it fails, and then the store goes down while it works. -/
def fiveDueRows : World where
  store := {
    orders := ([10, 12, 13, 14].map fun n => Order.fresh ⟨.versionFour n⟩ .newYear2024).map
      fun o => (o.id, o)
    rows := ([0, 1, 2, 3, 4].map fun n => OutboxRow.fresh ⟨.versionFour n⟩
      ⟨.versionFour (10 + n)⟩ OutboxRow.orderCreatedType " " .newYear2024).map fun e => (e.id, e) }
  processor := Processor.rescript {}
    [{}, { failure := some "out of stock" }, { disturbance := { store := some false } }] {}

/-- The poll ends at the fourth row: three are settled, and two keep their lease. -/
theorem leading_rows_settled_broken_off :
    fiveDueRows.store.Orderly ∧ fiveDueRows.store.opened = [] ∧ fiveDueRows.disturbances = [] ∧
      ∃ w' rows w₁ endings,
        OutboxProcessor.poll {} .newYear2024 fiveDueRows = some (.ok {
          claimed := 5
          processed := 1
          retried := 1
          errors := 2 }, w') ∧
        OutboxProcessor.Cycle {} .newYear2024 w₁ rows endings w' ∧
        rows.length = 5 ∧ endings.length = 3 := by
  have horderly : fiveDueRows.store.Orderly :=
    { Store.orderly_empty with
      orders := Table.keyed_map (by decide)
      rows := Table.keyed_map (by decide) }
  have hreport : (OutboxProcessor.poll {} .newYear2024 fiveDueRows).map (·.1) =
      some (.ok { claimed := 5, processed := 1, retried := 1, errors := 2 }) := by
    decide +kernel
  obtain ⟨r, w', hpoll, -, hsettles⟩ :=
    @OutboxProcessor.leading_rows_settled {} .newYear2024 _ horderly rfl rfl
  rw [hpoll, Option.map_some, Option.some.injEq] at hreport
  subst hreport
  obtain ⟨released, rows, w₁, endings, -, hcycle, hcounts⟩ := hsettles _ rfl
  simp only [ProcessingReport.mk.injEq] at hcounts
  obtain ⟨-, hclaimed, hprocessed, hretried, hfailed, herrors⟩ := hcounts
  -- Of the two errors one is the row without an order, or else five rows were settled.
  have hlength : endings.length = 3 := by
    have hsum := length_endings endings
    have hle := hcycle.length_le
    split at herrors <;> omega
  exact ⟨horderly, rfl, rfl, w', rows, w₁, endings, hpoll, hcycle, hclaimed.symm, hlength⟩

end OrderFlow
