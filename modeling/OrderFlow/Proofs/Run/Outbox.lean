import OrderFlow.Proofs.Run.Covered

/-! # No order is stranded

    In outbox mode nothing but its row makes an order known to the workers.
    So an order that is to be processed must have a row that somebody will
    look at again, after every commit, and however polls, operations and
    open transactions are interleaved.

    Almost everything keeps the orders covered by itself.  The one exception
    is a worker that settles a row which it has claimed: that it settles the
    row of the order on which it has made the attempt rests on committed rows
    staying where they are (`RowsKept`), from the claim until the end. -/

namespace OrderFlow

open World

/-! ## Committed rows -/

/-- **Committed rows stay**, each about the same order. -/
def Store.RowsKept (s s' : Store) : Prop :=
  ∀ id e, s.rows.find? id = some e → ∃ e', s'.rows.find? id = some e' ∧ e'.order = e.order

theorem Store.RowsKept.trans {s s' s'' : Store} (h : s.RowsKept s') (h' : s'.RowsKept s'') :
    s.RowsKept s'' := by
  intro id e he
  obtain ⟨e₁, he₁, horder⟩ := h id e he
  obtain ⟨e₂, he₂, horder'⟩ := h' id e₁ he₁
  exact ⟨e₂, he₂, horder'.trans horder⟩

theorem Store.SameTables.rowsKept {s s' : Store} (h : s.SameTables s') : s.RowsKept s' := by
  intro id e he
  exact ⟨e, h.rows ▸ he, rfl⟩

/-- **A world that is in order**, in which the rows that workers have claimed
    are committed. -/
structure World.Tended (w : World) (claimed : List OutboxRow) : Prop where
  orderly : w.store.Orderly
  sound : w.Sound
  covered : w.Covered
  claimed : ∀ e ∈ claimed, ∃ e', w.store.rows.find? e.id = some e' ∧ e'.order = e.order

/-- Steps that keep the orders covered and the committed rows in place, as
    long as the claimed rows are committed. -/
structure Tends (claimed : List OutboxRow) (w w' : World) : Prop where
  continues : Continues (fun _ => True) w w'
  keeps : w'.ids.Lasts → w.Tended claimed → w'.Covered ∧ w.store.RowsKept w'.store

namespace Tends

variable {claimed : List OutboxRow} {w w' : World}

theorem tended (h : Tends claimed w w') (hids : w'.ids.Lasts) (hw : w.Tended claimed) :
    w'.Tended claimed := by
  obtain ⟨hcovered, hkept⟩ := h.keeps hids hw
  refine ⟨h.continues.orderly hw.orderly, h.continues.sound hw.orderly hids hw.sound, hcovered, ?_⟩
  intro e he
  obtain ⟨e₁, he₁, horder⟩ := hw.claimed e he
  obtain ⟨e₂, he₂, horder'⟩ := hkept _ e₁ he₁
  exact ⟨e₂, he₂, horder'.trans horder⟩

theorem lasts (h : Tends claimed w w') (hw : w.store.Orderly) (hids : w'.ids.Lasts) :
    w.ids.Lasts :=
  hids.mono (h.continues.ids_le hw)

theorem chains : Attempt.Chains (Tends claimed) where
  refl w := ⟨Continues.chains.refl w, fun _ hw => ⟨hw.covered, fun _ e he => ⟨e, he, rfl⟩⟩⟩
  trans := by
    intro w₁ w₂ w₃ h₁ h₂
    refine ⟨Continues.chains.trans h₁.continues h₂.continues, fun hids hw => ?_⟩
    have hids₁ := h₂.lasts (h₁.continues.orderly hw.orderly) hids
    obtain ⟨-, hkept₁⟩ := h₁.keeps hids₁ hw
    obtain ⟨hcovered, hkept₂⟩ := h₂.keeps hids (h₁.tended hids₁ hw)
    exact ⟨hcovered, hkept₁.trans hkept₂⟩

theorem elsewhere (h : Elsewhere w w') : Tends claimed w w' where
  continues := Continues.elsewhere h
  keeps _ hw := ⟨Views.elsewhere hw.covered coveredFor_ofTables h, h.sameTables.rowsKept⟩

/-- Work inside one transaction. -/
theorem of_works (t : TxId) (hcontinues : Continues (fun _ => True) w w')
    (hworks : w'.ids.Lasts → w.Tended claimed → ∃ called tx tx', Works t called w tx w' tx' ∧
      CoveredFor w.store w'.ids tx') : Tends claimed w w' where
  continues := hcontinues
  keeps hids hw := by
    obtain ⟨called, tx, tx', hworks, hcovered⟩ := hworks hids hw
    exact ⟨Views.works hw.covered coveredFor_ofTables hworks hcovered,
      hworks.store.sameTables.rowsKept⟩

theorem start : Attempt.Moves (Tends claimed) Call.start := by
  intro w r w' h
  refine ⟨Continues.respects.start w r w' h, fun hids hw => ?_⟩
  obtain ⟨w₁, helse, ⟨-, -, rfl⟩ | ⟨-, -, rfl⟩⟩ := Call.start_eq_some h
  · have hcovered : w₁.Covered := Views.elsewhere hw.covered coveredFor_ofTables helse
    exact ⟨Views.start hcovered coveredFor_ofTables, helse.sameTables.rowsKept⟩
  · exact (elsewhere helse).keeps hids hw

theorem commit (t : TxId) : Attempt.Moves (Tends claimed) (Call.commit t) := by
  intro w r w' h
  refine ⟨Continues.respects.commit t w r w' h, fun hids hw => ?_⟩
  obtain ⟨w₁, tx, helse, htx, hend⟩ := Call.commit_eq_some h
  have horderly := helse.orderly hw.orderly
  have hsound : w₁.Sound := Views.elsewhere hw.sound soundFor_ofTables helse
  have hcovered : w₁.Covered := Views.elsewhere hw.covered coveredFor_ofTables helse
  obtain ⟨-, -, rfl⟩ | ⟨-, -, rfl⟩ := hend
  · refine ⟨hcovered.commit hsound horderly htx, helse.sameTables.rowsKept.trans ?_⟩
    intro id e he
    obtain ⟨e', he', horder⟩ := (hcovered _ (Store.current_opened htx)).about he
    exact ⟨e', (Store.rows_absorb (horderly.each htx) _ _).trans he', horder⟩
  · exact ⟨Views.close hcovered coveredFor_ofTables, helse.sameTables.rowsKept⟩

theorem abandon (t : TxId) :
    Attempt.Moves (Tends claimed) (Call.inStore (Store.abandon t)) := by
  intro w r w' h
  refine ⟨Continues.respects.abandon t w r w' h, fun hids hw => ?_⟩
  obtain ⟨tx, htx, -, rfl⟩ := Call.abandon_eq_some h
  exact ⟨Views.close hw.covered coveredFor_ofTables, (Store.sameTables_close _ t).rowsKept⟩

end Tends

/-! ## Attempts -/

section attempts
variable {claimed : List OutboxRow} {w w' : World} {t : TxId} {id : OrderId} {now : Instant}
  {m : Nat}

/-- **How an attempt has ended** shows in the order, which is locked. -/
structure Concluded (s : Store) (tx : Transaction) (id : OrderId) (outcome : Outcome) : Prop where
  held : LockKey.order id ∈ tx.held
  order : ∃ o, s.orderIn tx id = some o ∧ (outcome = .processed → o.status = .processed) ∧
    (outcome = .failed → o.status ≠ .pending)

theorem concluded_passedOver {s : Store} {tx : Transaction} {o : Order}
    (ho : s.orderIn tx id = some o) (hstatus : o.status ≠ .pending) :
    Concluded s (tx.hold (.order id)) id o.passedOver where
  held := Transaction.mem_held_self
  order := by
    refine ⟨o, by simpa using ho, ?_, fun _ => hstatus⟩
    unfold Order.passedOver
    split
    · next h => exact fun _ => h
    · intro h
      cases h

theorem concluded_attempted {s : Store} {tx tx' : Transaction} {o : Order} {outcome : Outcome}
    (hheld : LockKey.order o.id ∈ tx.held) (h : Attempted o now m tx outcome tx') :
    Concluded s tx' o.id outcome := by
  cases h with
  | processed =>
    refine ⟨hheld, o.tried now .complete, by simp, fun _ => by simp [Transition.target], ?_⟩
    intro h
    cases h
  | retry reason _ =>
    refine ⟨hheld, o.tried now (.scheduleRetry reason), by simp, ?_, ?_⟩
    · intro h
      cases h
    · intro h
      cases h
  | failed reason _ =>
    refine ⟨Transaction.mem_held_of_mem hheld, o.tried now (.fail reason), by simp, ?_,
      fun _ => by simp [Transition.target]⟩
    intro h
    cases h

/-- **An attempt** keeps the orders covered, whether it is passed over or not. -/
theorem processIn_covered {r : Except OperationError Outcome} (hw : w.Tended claimed)
    (h : processIn t id now m w = some (r, w')) :
    ∃ called tx tx', Works t called w tx w' tx' ∧ CoveredFor w.store w'.ids tx' ∧
      ((w.store.orderIn tx id = none ∧ r = .error (.orderNotFound id)) ∨
        ∃ outcome, r = .ok outcome ∧ Concluded w.store tx' id outcome) := by
  obtain ⟨tx, hcases⟩ := processIn_works hw.orderly h
  have hself : w.store.SameTables w.store := ⟨rfl, rfl, rfl⟩
  obtain ⟨hnone, rfl, hworks⟩ | ⟨o, ho, hstatus, rfl, hworks⟩ |
    ⟨o, outcome, tx', ho, rfl, hstatus, rfl, hattempted, hworks⟩ := hcases
  all_goals have hview := hw.covered _ (Store.current_opened hworks.store.before)
  · exact ⟨_, tx, _, hworks, (hview.hold _).mono hself hworks.ids, Or.inl ⟨hnone, rfl⟩⟩
  · exact ⟨_, tx, _, hworks, (hview.hold _).mono hself hworks.ids,
      Or.inr ⟨_, rfl, concluded_passedOver ho hstatus⟩⟩
  · exact ⟨_, tx, tx', hworks, (hview.attempted ho hstatus hattempted).mono hself hworks.ids,
      Or.inr ⟨_, rfl, concluded_attempted Transaction.mem_held_self
        hattempted⟩⟩

end attempts

/-! ## Rows -/

section rows
variable {claimed : List OutboxRow} {w w' : World} {t : TxId} {tx : Transaction} {id : RowId}

/-- **A row changes** in a transaction that may change it so. -/
theorem changeRow_covered {f : OutboxRow → OutboxRow} {r : Except OperationError Unit}
    (htx : w.store.opened.find? t = some tx) (hview : CoveredFor w.store w.ids tx)
    (hf : ∀ e, (f e).order = e.order)
    (hdone : ∀ e, w.store.rowIn tx id = some e → (f e).status = .processed →
      ∃ o, w.store.orderIn tx e.order = some o ∧ o.status = .processed)
    (hsettled : ∀ e, w.store.rowIn tx id = some e → (f e).status.isSettled = true →
      LockKey.order e.order ∈ tx.held ∧ ∀ o, w.store.orderIn tx e.order = some o →
        o.status ≠ .pending)
    (h : Call.inStore (Store.changeRow t id f) w = some (r, w')) :
    (∃ tx', Works t [] w tx w' tx' ∧ CoveredFor w.store w'.ids tx') ∧
      (r = .ok () ∨ ∃ cause, r = .error (.store cause)) := by
  obtain ⟨r₀, s', hs, rfl, rfl⟩ := Call.inStore_eq_some h
  obtain ⟨tx₀, ⟨-, rfl, hp⟩ | ⟨e, he, rfl, hp⟩⟩ := Store.changeRow_eq_some hs
  all_goals obtain rfl := hp.tx_eq htx
  · exact ⟨⟨_, Call.works_inStore hp, hview.hold _⟩, Or.inr ⟨_, rfl⟩⟩
  · refine ⟨⟨_, Call.works_inStore hp, ?_⟩, Or.inl rfl⟩
    refine (hview.hold (.row id)).changeRow (by simpa using he) (hf e) ?_ ?_
    · simpa using hdone e he
    · intro hstatus
      obtain ⟨hheld, hpending⟩ := hsettled e he hstatus
      exact ⟨Transaction.mem_held_of_mem hheld, by simpa using hpending⟩

theorem changeRow_opened {f : OutboxRow → OutboxRow} {r : Except OperationError Unit}
    (h : Call.inStore (Store.changeRow t id f) w = some (r, w')) :
    ∃ tx, w.store.opened.find? t = some tx := by
  obtain ⟨r₀, s', hs, -⟩ := Call.inStore_eq_some h
  obtain ⟨tx, ⟨-, -, hp⟩ | ⟨e, -, -, hp⟩⟩ := Store.changeRow_eq_some hs
  · exact ⟨tx, hp.before⟩
  · exact ⟨tx, hp.before⟩

/-- Stale leases end. -/
theorem endStaleLeases_covered {limit : Instant} {r : Except OperationError Nat}
    (hw : w.Tended claimed) (h : Call.inStore (Store.endStaleLeases t limit) w = some (r, w')) :
    ∃ tx tx', Works t [] w tx w' tx' ∧ CoveredFor w.store w'.ids tx' := by
  obtain ⟨r₀, s', hs, -, rfl⟩ := Call.inStore_eq_some h
  obtain ⟨tx, rows, -, hrows, hp⟩ := Store.endStaleLeases_eq_some hs
  have hview := hw.covered _ (Store.current_opened hp.before)
  refine ⟨tx, _, Call.works_inStore hp, ?_⟩
  refine (hview.holdAll _).putRows (f := OutboxRow.endLease) (fun _ => rfl) (fun _ => rfl) ?_
  intro e he
  subst hrows
  have hseen := (Store.mem_lockableRows.mp he).1
  have hfound := (hw.orderly.mem_rowsIn_iff hp.before).mp hseen
  exact ⟨e, (Store.rowIn_congr (congrArg (·.find? e.id) (Store.foldl_hold_rows _ _))).trans hfound,
    rfl⟩

/-- Rows are claimed, which only locks them. -/
theorem claimDue_covered {limit : Nat} {now : Instant} {r : Except OperationError (List OutboxRow)}
    (hw : w.Tended claimed) (h : Call.inStore (Store.claimDue t limit now) w = some (r, w')) :
    ∃ tx tx', Works t [] w tx w' tx' ∧ CoveredFor w.store w'.ids tx' := by
  obtain ⟨r₀, s', hs, -, rfl⟩ := Call.inStore_eq_some h
  obtain ⟨tx, found, -, -, hp⟩ := Store.claimDue_eq_some hs
  have hview := hw.covered _ (Store.current_opened hp.before)
  exact ⟨tx, _, Call.works_inStore hp, hview.holdAll _⟩

end rows

/-! ## What keeps the orders covered -/

namespace Tends

variable {claimed : List OutboxRow} {w w' : World}

/-- **The common pieces** keep the orders covered. -/
theorem respects : Respects (Tends claimed) fun _ => True where
  chains := chains
  aside h := elsewhere h.toElsewhere
  start := start
  attempt t id now m _ := by
    intro w r w' h
    refine of_works t (Continues.respects.attempt t id now trivial w r w' h) fun _ hw => ?_
    obtain ⟨called, tx, tx', hworks, hcovered, -⟩ := processIn_covered hw h
    exact ⟨called, tx, tx', hworks, hcovered⟩
  endStaleLeases t limit := by
    intro w r w' h
    refine of_works t (Continues.respects.endStaleLeases t limit w r w' h) fun _ hw => ?_
    exact ⟨[], endStaleLeases_covered hw h⟩
  claimDue t limit now := by
    intro w r w' h
    refine of_works t (Continues.respects.claimDue t limit now w r w' h) fun _ hw => ?_
    exact ⟨[], claimDue_covered hw h⟩
  leaseRow t id now name := by
    intro w r w' h
    refine of_works t (Continues.respects.leaseRow t id now name w r w' h) fun _ hw => ?_
    obtain ⟨tx, htx⟩ := changeRow_opened h
    have hview := hw.covered _ (Store.current_opened htx)
    -- A leased row is not settled, so there is nothing to show of its order.
    obtain ⟨⟨tx', hworks, hcovered⟩, -⟩ := changeRow_covered htx hview
      (f := fun e => e.lease now name) (fun _ => rfl) (by rintro e - ⟨⟩) (by rintro e - ⟨⟩) h
    exact ⟨[], tx, tx', hworks, hcovered⟩
  commit := commit
  abandon := abandon

theorem stageAccept (t : TxId) (correlation : Option String) (now : Instant) :
    Attempt.Moves (Tends claimed) (PublishMode.outbox.stageAccept t correlation now) := by
  intro w r w' h
  refine of_works t (Continues.stageAccept .outbox t correlation now w r w' h) fun hids hw => ?_
  obtain ⟨tx, tx', ids', -, hlt, hids', hann, hworks⟩ := PublishMode.stageAccept_works h
  have hcurrent := Store.current_opened hworks.store.before
  exact ⟨[], tx, tx', hworks, (hw.covered _ hcurrent).accepted (hw.sound _ hcurrent)
    (Nat.le_refl _) hlt hids' hids hann⟩

theorem stageReadmit (t : TxId) (id : OrderId) (now : Instant) :
    Attempt.Moves (Tends claimed) <| PublishMode.outbox.stageReadmit t id now := by
  intro w r w' h
  have hcontinues : Continues (fun _ => True) w w' :=
    Continues.stageReadmit .outbox t id now w r w' h
  obtain ⟨tx, -, ⟨-, -, rfl⟩ | ⟨-, hfound⟩⟩ := PublishMode.stageReadmit_eq_some h
  · exact chains.refl _
  refine of_works t hcontinues fun hids hw => ?_
  have hself : w.store.SameTables w.store := ⟨rfl, rfl, rfl⟩
  obtain ⟨tx, ⟨-, -, hworks⟩ | ⟨o, ho, hcases⟩⟩ := PublishMode.readmitFound_works hw.orderly hfound
  · have hview := hw.covered _ (Store.current_opened hworks.store.before)
    exact ⟨[], tx, _, hworks, (hview.hold _).mono hself hworks.ids⟩
  obtain ⟨-, -, hworks⟩ | ⟨-, rfl, hstatus, tx', -, hann, hworks⟩ := hcases
  · have hview := hw.covered _ (Store.current_opened hworks.store.before)
    exact ⟨[], tx, _, hworks, (hview.withoutLetter id).mono hself hworks.ids⟩
  · have hview := hw.covered _ (Store.current_opened hworks.store.before)
    exact ⟨[], tx, tx', hworks, hview.readmitted ho hstatus hworks.ids hids hann⟩

end Tends

/-! ## Settling claimed rows -/

section settling
variable {claimed : List OutboxRow} {w w' : World} {t : TxId} {p : OutboxProcessor}
  {e : OutboxRow} {now : Instant}

/-- **The transaction of a claimed row** keeps the orders covered, and whatever
    it fails for may pass: the order of a claimed row exists. -/
theorem settleIn_covered {r : Except OperationError Outcome} (hw : w.Tended claimed)
    (he : e ∈ claimed) (htx : w.store.opened.find? t = some {})
    (h : p.settleIn e now t w = some (r, w')) :
    (∃ called tx', Works t called w {} w' tx' ∧ CoveredFor w.store w'.ids tx') ∧
      ∀ cause, r = .error cause → cause.isLasting = false := by
  obtain ⟨e₀, he₀, horder₀⟩ := hw.claimed e he
  obtain ⟨outcome, w₁, r', hprocess, hsettle, rfl⟩ | ⟨cause, hprocess, rfl⟩ :=
    OutboxProcessor.settleIn_eq_some h
  all_goals
    obtain ⟨called, tx, tx₁, hworks, hcovered, hend⟩ := processIn_covered hw hprocess
    obtain rfl := hworks.store.tx_eq htx
  · obtain ⟨-, hr⟩ | ⟨_, hr, hconcluded⟩ := hend
    · cases hr
    cases hr
    have hsame := hworks.store.sameTables
    have hview : CoveredFor w₁.store w₁.ids tx₁ := hcovered.mono hsame (Nat.le_refl _)
    -- The claimed row is committed as a row about this order, and no view changes that.
    have horder : ∀ row, w₁.store.rowIn tx₁ e.id = some row → row.order = e.order := by
      intro row hrow
      obtain ⟨e₁, he₁, horder₁⟩ := hview.about (hsame.rows ▸ he₀)
      rw [hrow, Option.some.injEq] at he₁
      rw [he₁, horder₁, horder₀]
    obtain ⟨o, ho, hprocessed, hfailed⟩ := hconcluded.order
    rw [hsame.orderIn] at ho
    -- The row is settled exactly as its order is.
    have hkept : ∀ row, (p.settled e now outcome row).order = row.order := by
      intro row
      cases outcome <;> rfl
    have hrow := changeRow_covered hworks.store.after hview hkept ?_ ?_ hsettle
    · obtain ⟨⟨tx', hworks', hcovered'⟩, hanswer⟩ := hrow
      refine ⟨⟨_, tx', hworks.trans hworks', hcovered'.mono hsame.symm (Nat.le_refl _)⟩, ?_⟩
      intro cause hcause
      obtain rfl | ⟨cause', rfl⟩ := hanswer
      · cases hcause
      · cases hcause
        rfl
    · intro row hrow hstatus
      rw [horder row hrow]
      cases outcome with
      | processed => exact ⟨o, ho, hprocessed rfl⟩
      | retry | failed => cases hstatus
    · intro row hrow hstatus
      rw [horder row hrow]
      refine ⟨hconcluded.held, fun o' ho' => ?_⟩
      rw [ho, Option.some.injEq] at ho'
      rw [← ho']
      cases outcome with
      | processed => simp [hprocessed rfl]
      | retry => cases hstatus
      | failed => exact hfailed rfl
  · -- An attempt fails only for want of the order, and a committed row has its order.
    obtain ⟨hnone, -⟩ | ⟨_, hr, -⟩ := hend
    · obtain ⟨o, ho⟩ := (hw.covered _ (Store.current_empty _)).known he₀
      rw [horder₀, hnone] at ho
      cases ho
    · cases hr

namespace Tends

/-- **A claimed row is settled.** -/
theorem settle {r : Except OperationError Outcome} (he : e ∈ claimed)
    (h : p.settle e now w = some (r, w')) : Tends claimed w w' ∧
      (w'.ids.Lasts → w.Tended claimed → ∀ cause, r = .error cause → cause.isLasting = false) := by
  obtain ⟨cause, hstart, rfl⟩ | ⟨t, w₁, hstart, hrest⟩ := Call.transact_eq_some h
  · obtain ⟨rfl, helse⟩ := Call.start_error hstart
    refine ⟨elsewhere helse, fun _ _ cause hcause => ?_⟩
    cases hcause
    rfl
  have hbegin : Tends claimed w w₁ := start w _ w₁ hstart
  obtain ⟨hopened, -⟩ := Call.start_ok hstart
  have hbody {rb : Except OperationError Outcome} {w₂ : World}
      (hrun : p.settleIn e now t w₁ = some (rb, w₂)) : Tends claimed w₁ w₂ := by
    have hcontinues : Continues (fun _ => True) w₁ w₂ :=
      Continues.respects.settleIn Continues.respectsRows e now trivial t w₁ rb w₂ hrun
    refine of_works t hcontinues fun _ hw => ?_
    obtain ⟨⟨called, tx', hworks, hcovered⟩, -⟩ := settleIn_covered hw he hopened hrun
    exact ⟨called, {}, tx', hworks, hcovered⟩
  obtain ⟨outcome, w₂, r', hrun, hcommit, rfl⟩ | ⟨cause, w₂, hrun, habandon, rfl⟩ := hrest
  · refine ⟨chains.trans hbegin (chains.trans (hbody hrun) (commit t _ _ _ hcommit)), ?_⟩
    intro _ _ cause hcause
    obtain ⟨w₃, tx, -, -, ⟨rfl, -⟩ | ⟨rfl, -⟩⟩ := Call.commit_eq_some hcommit
    · cases hcause
    · cases hcause
      rfl
  · have hend := chains.trans (hbody hrun) (abandon t _ _ _ habandon)
    refine ⟨chains.trans hbegin hend, ?_⟩
    intro hids hw cause' hcause
    cases hcause
    have hids₁ := hend.lasts (hbegin.continues.orderly hw.orderly) hids
    exact (settleIn_covered (hbegin.tended hids₁ hw) he hopened hrun).2 cause rfl

/-- **Claimed rows are settled**, one after the other.  No row is given up on
    without its order. -/
theorem settleAll {rows : List OutboxRow} (hrows : ∀ e ∈ rows, e ∈ claimed)
    (report : ProcessingReport) : Attempt.Moves (Tends claimed) (p.settleAll now rows report) := by
  induction rows generalizing report with
  | nil => exact Attempt.Moves.pure chains report
  | cons e rest ih =>
    intro w r w' h
    have hcontinues : Continues (fun _ => True) w w' :=
      Continues.respects.settleAll Continues.respectsRows now trivial (e :: rest) report w r w' h
    obtain ⟨r₁, w₁, hsettle, hrest⟩ := Attempt.outcome_bind_eq_some h
    obtain ⟨htends, hpasses⟩ := settle (hrows e List.mem_cons_self) hsettle
    cases r₁ with
    | ok outcome =>
      exact chains.trans htends
        (ih (fun e he => hrows e (List.mem_cons_of_mem _ he)) _ _ _ _ hrest)
    | error cause =>
      -- The branch that gives up on the row alone is never taken.
      dsimp only at hrest
      split at hrest
      · next hlasting =>
        refine ⟨hcontinues, fun hids hw => ?_⟩
        have hlater : Continues (fun _ => True) w₁ w' :=
          Continues.respects.bind
            (Continues.respects.giveUp Continues.respectsRows e now cause).outcome
            (fun _ => Continues.respects.settleAll Continues.respectsRows now trivial rest _)
            w₁ r w' hrest
        have hids₁ := hids.mono (hlater.ids_le (htends.continues.orderly hw.orderly))
        rw [hpasses hids₁ hw cause rfl] at hlasting
        cases hlasting
      · cases hrest
        exact htends

end Tends

end settling

/-! ## Polls -/

section polls
variable {claimed : List OutboxRow} {w w' : World}

/-- **Leased rows are committed** when the lease is. -/
theorem lease_claims {c : Claimant} {now : Instant} {found : List OutboxRow}
    (hw : w.Tended claimed) (hids : w'.ids.Lasts) (h : c.lease now w = some (.ok found, w')) :
    ∀ e ∈ found, ∃ e', w'.store.rows.find? e.id = some e' ∧ e'.order = e.order := by
  obtain ⟨cause, -, hr⟩ | ⟨t, w₁, hstart, hrest⟩ := Call.transact_eq_some h
  · cases hr
  obtain ⟨found', w₂, r', hrun, hcommit, hr⟩ | ⟨cause, w₂, -, -, hr⟩ := hrest
  · have hfound : found' = found := by
      cases r' with
      | ok _ =>
        cases hr
        rfl
      | error cause => cases hr
    subst hfound
    have hbegin : Tends claimed w w₁ := Tends.start w _ w₁ hstart
    have hlater : Tends claimed w₁ w' := Tends.chains.trans
      (Tends.respects.leaseDue c t now _ _ _ hrun) (Tends.commit t _ _ _ hcommit)
    have hids₁ := hlater.lasts (hbegin.continues.orderly hw.orderly) hids
    have hw₁ := hbegin.tended hids₁ hw
    obtain ⟨-, hkept⟩ := hlater.keeps hids hw₁
    -- A transaction that has only just begun sees what is committed.
    have hseen : ∀ e ∈ found', w₁.store.rows.find? e.id = some e := by
      obtain ⟨r₀, s', hs, hr₀, -⟩ := Call.inStore_eq_some hrun
      obtain ⟨rows, s₁, hclaim, hleases⟩ | ⟨cause, -, rfl⟩ := Attempt.bind_eq_some_iff.mp hs
      · obtain ⟨tx, _, hr₁, hrows, hp⟩ := Store.claimDue_eq_some hclaim
        cases hr₁
        obtain rfl := hp.tx_eq (Call.start_ok hstart).1
        obtain ⟨_, s₂, -, hpure⟩ | ⟨cause, -, rfl⟩ := Attempt.bind_eq_some_iff.mp hleases
        · cases hpure
          cases hr₀
          intro e he
          exact (hw₁.orderly.mem_rowsIn_iff hp.before).mp (hrows e he).1
        · cases hr₀
      · cases hr₀
    intro e he
    exact hkept e.id e (hseen e he)
  · cases hr

namespace Tends

/-- **A whole poll** keeps the orders covered. -/
theorem pollOutbox (p : OutboxProcessor) (now : Instant) :
    Attempt.Moves (Tends claimed) (p.poll now) := by
  intro w r w' h
  obtain ⟨⟨released, rows⟩, w₁, hclaim, hrest⟩ | ⟨cause, hclaim, -⟩ :=
    Attempt.bind_eq_some_iff.mp h
  · have hfirst : Tends claimed w w₁ := respects.claim p.claimant now _ _ _ hclaim
    -- From here on the rows of this poll count as claimed.
    have hrows : Tends rows w₁ w' := settleAll (fun e he => he) _ _ _ _ hrest
    refine ⟨Continues.chains.trans hfirst.continues hrows.continues, fun hids hw => ?_⟩
    have hids₁ := hrows.lasts (hfirst.continues.orderly hw.orderly) hids
    have hw₁ := hfirst.tended hids₁ hw
    have hcommitted : ∀ e ∈ rows,
        ∃ e', w₁.store.rows.find? e.id = some e' ∧ e'.order = e.order := by
      obtain ⟨released', w₂, hrelease, hlease⟩ | ⟨cause, -, hr⟩ :=
        Attempt.bind_eq_some_iff.mp hclaim
      · obtain ⟨rows', w₃, hlease, hpure⟩ | ⟨cause, -, hr⟩ := Attempt.bind_eq_some_iff.mp hlease
        · cases hpure
          have hbefore : Tends claimed w w₂ := respects.release p.claimant now _ _ _ hrelease
          have hbetween : Tends claimed w₂ w₁ := respects.lease p.claimant now _ _ _ hlease
          have hids₂ := hbetween.lasts (hbefore.continues.orderly hw.orderly) hids₁
          exact lease_claims (hbefore.tended hids₂ hw) hids₁ hlease
        · cases hr
      · cases hr
    obtain ⟨-, hkept⟩ := hfirst.keeps hids₁ hw
    obtain ⟨hcovered, hkept'⟩ := hrows.keeps hids { hw₁ with claimed := hcommitted }
    exact ⟨hcovered, hkept.trans hkept'⟩
  · exact respects.claim p.claimant now _ _ _ hclaim

/-- **Every action of a pipeline in outbox mode** keeps the orders covered. -/
theorem act {a : Action} (ha : a.Within (· = .outbox) False) :
    Attempt.Moves (Tends claimed) a.call := by
  refine Action.moves_elsewhere respects elsewhere ?_ ?_ (fun p _ => pollOutbox p)
    (fun hrelay => hrelay.elim) ha fun _ _ => trivial
  · rintro _ rfl t correlation now
    exact stageAccept t correlation now
  · rintro _ rfl t id now
    exact stageReadmit t id now

end Tends

end polls

/-! ## Runs -/

/-- **A run in outbox mode** from an empty store, and the rows that workers
    have claimed so far.  Besides whole actions, polls may be interleaved with
    everything else: their transactions one by one, and a claimed row settled
    at any later time, by any worker and more than once. -/
inductive OutboxRun : World → List OutboxRow → Prop where
  /-- Nothing has been done. -/
  | empty {w : World} (h : w.store = {}) : OutboxRun w []
  /-- An action of a pipeline in outbox mode; nobody only forwards rows. -/
  | act {w w' : World} {claimed : List OutboxRow} {a : Action} {r : Except OperationError Unit}
    (h : OutboxRun w claimed) (ha : a.Within (· = .outbox) False)
    (hcall : a.call w = some (r, w')) : OutboxRun w' claimed
  /-- A poll frees stale rows. -/
  | release {w w' : World} {claimed : List OutboxRow} {c : Claimant} {now : Instant}
    {r : Except OperationError Nat} (h : OutboxRun w claimed)
    (hcall : c.release now w = some (r, w')) : OutboxRun w' claimed
  /-- A poll claims rows. -/
  | lease {w w' : World} {claimed found : List OutboxRow} {c : Claimant} {now : Instant}
    (h : OutboxRun w claimed) (hcall : c.lease now w = some (.ok found, w')) :
    OutboxRun w' (found ++ claimed)
  /-- A poll fails to claim rows. -/
  | noLease {w w' : World} {claimed : List OutboxRow} {c : Claimant} {now : Instant}
    {cause : OperationError} (h : OutboxRun w claimed)
    (hcall : c.lease now w = some (.error cause, w')) : OutboxRun w' claimed
  /-- A poll settles a claimed row. -/
  | settle {w w' : World} {claimed : List OutboxRow} {p : OutboxProcessor} {e : OutboxRow}
    {now : Instant} {report : ProcessingReport} {r : Except OperationError ProcessingReport}
    (h : OutboxRun w claimed) (he : e ∈ claimed)
    (hcall : p.settleAll now [e] report w = some (r, w')) : OutboxRun w' claimed

namespace OutboxRun

variable {w w' : World} {claimed : List OutboxRow}

/-- What every run keeps; ids have to be fresh for most of it. -/
theorem orderly_and_tended (h : OutboxRun w claimed) :
    w.store.Orderly ∧ (w.ids.Lasts → w.Tended claimed) := by
  have hstep {w w' : World} {claimed : List OutboxRow} (h : Tends claimed w w')
      (ih : w.store.Orderly ∧ (w.ids.Lasts → w.Tended claimed)) :
      w'.store.Orderly ∧ (w'.ids.Lasts → w'.Tended claimed) :=
    ⟨h.continues.orderly ih.1, fun hids => h.tended hids (ih.2 (h.lasts ih.1 hids))⟩
  induction h with
  | empty h =>
    have horderly : Store.Orderly _ := h ▸ Store.orderly_empty
    exact ⟨horderly, fun _ => ⟨horderly, sound_empty h, covered_empty h, by simp⟩⟩
  | act _ ha hcall ih => exact hstep (Tends.act ha _ _ _ hcall) ih
  | release _ hcall ih => exact hstep (Tends.respects.release _ _ _ _ _ hcall) ih
  | noLease _ hcall ih => exact hstep (Tends.respects.lease _ _ _ _ _ hcall) ih
  | settle _ he hcall ih =>
    exact hstep (Tends.settleAll (by simpa using he) _ _ _ _ hcall) ih
  | @lease w w' claimed found c now _ hcall ih =>
    have htends : Tends claimed w w' := Tends.respects.lease c now _ _ _ hcall
    obtain ⟨horderly, htended⟩ := hstep htends ih
    refine ⟨horderly, fun hids => { htended hids with claimed := fun e he => ?_ }⟩
    obtain hfound | hclaimed := List.mem_append.mp he
    · exact lease_claims (ih.2 (htends.lasts ih.1 hids)) hids hcall e hfound
    · exact (htended hids).claimed e hclaimed

/-- Any number of actions. -/
theorem play {actions : List Action} (h : OutboxRun w claimed)
    (hactions : ∀ a ∈ actions, a.Within (· = .outbox) False)
    (hplay : w.play actions = some w') : OutboxRun w' claimed := by
  induction actions generalizing w with
  | nil =>
    cases hplay
    exact h
  | cons a rest ih =>
    obtain ⟨r, w₁, hcall, hrest⟩ := World.play_cons hplay
    exact ih (h.act (hactions a List.mem_cons_self) hcall)
      (fun a ha => hactions a (List.mem_cons_of_mem _ ha)) hrest

end OutboxRun

/-- **No order is stranded.**  At any time in any run in outbox mode, however
    polls and open transactions are interleaved, whenever the store is
    available and whatever the processor answers: the order of every outbox
    row exists; every order that is to be processed has a row that is still
    owed work; and the order of every row that is settled as done is done. -/
theorem no_order_stranded {w : World} {claimed : List OutboxRow} (h : OutboxRun w claimed)
    (hids : w.ids.Lasts) :
    (∀ e ∈ w.store.listRows, ∃ o, w.store.orders.find? e.order = some o) ∧
    (∀ id o, w.store.orders.find? id = some o → o.status = .pending →
      ∃ e ∈ w.store.listRows, e.order = id ∧ (e.status = .pending ∨ e.status = .processing)) ∧
    (∀ e ∈ w.store.listRows, e.status = .processed →
      ∃ o, w.store.orders.find? e.order = some o ∧ o.status = .processed) := by
  obtain ⟨horderly, htended⟩ := h.orderly_and_tended
  -- What is committed is what a transaction sees that begins now.
  have hview : CoveredFor w.store w.ids {} := (htended hids).covered _ (Store.current_empty _)
  refine ⟨?_, ?_, ?_⟩
  · intro e he
    exact hview.known (horderly.mem_listRows_iff.mp he)
  · intro id o ho hpending
    obtain ⟨row, e, he, horder, hlive⟩ := hview.live ho hpending
    obtain rfl := horderly.rows.own he
    refine ⟨e, horderly.mem_listRows_iff.mpr he, horder, ?_⟩
    cases hstatus : e.status with
    | pending => exact Or.inl rfl
    | processing => exact Or.inr rfl
    | processed | failed =>
      rw [hstatus] at hlive
      cases hlive
  · intro e he hstatus
    exact hview.done (horderly.mem_listRows_iff.mp he) hstatus

/-- Two orders are accepted, and a poll takes one row. -/
theorem no_order_stranded_half_done :
    ∃ w claimed, OutboxRun w claimed ∧ w.ids.Lasts ∧
      (∃ o, w.store.orders.find? ⟨.versionFour 0⟩ = some o ∧ o.status = .processed) ∧
      ∃ e ∈ w.store.listRows, e.order = ⟨.versionFour 2⟩ ∧
        (e.status = .pending ∨ e.status = .processing) := by
  have hplay : (World.play {} [
      .accept .outbox none,
      .accept .outbox none,
      .pollOutbox { claimant := { name := "worker", batchSize := 1 } } .newYear2024]).map
        (fun w => ((w.store.orders.find? ⟨.versionFour 0⟩).map (·.status),
          (w.store.orders.find? ⟨.versionFour 2⟩).map (·.status), w.ids.next)) =
      some (some .processed, some .pending, 4) := by
    decide +kernel
  obtain ⟨w, hw, heq⟩ := Option.map_eq_some_iff.mp hplay
  obtain ⟨hfirst, heq⟩ := Prod.mk.inj heq
  obtain ⟨hsecond, hnext⟩ := Prod.mk.inj heq
  obtain ⟨o, ho, hpending⟩ := Option.map_eq_some_iff.mp hsecond
  have hrun : OutboxRun w [] := OutboxRun.play (.empty rfl) (by simp [Action.Within]) hw
  have hids : w.ids.Lasts := by
    unfold IdSupply.Lasts
    omega
  exact ⟨w, [], hrun, hids, Option.map_eq_some_iff.mp hfirst,
    (no_order_stranded hrun hids).2.1 _ o ho hpending⟩

end OrderFlow
