import OrderFlow.Proofs.Run.Sound

/-! # Orders are processed once

    A signal for an order may come twice, by any route, and an attempt may
    be lost with a commit that the store refuses.  Still an order that is
    committed as processed stays as it is for good and the processor never
    sees it again: a signal for a settled order takes the order's lock, is
    answered from the order's status, and writes nothing. -/

namespace OrderFlow

open World

variable {w w' : World} {j j' : Journal} {t : TxId} {tx : Transaction} {id : OrderId} {o : Order}

/-! ## Processed orders stay -/

/-- **A processed order is left alone by every effect**: what is committed of
    it stays, and the processor is not called for it. -/
theorem Effect.processed_stays (h : Effect (w, j) (w', j')) (horderly : w.store.Orderly)
    (hw : w.Sound) (ho : w.store.orders.find? id = some o) (hstatus : o.status = .processed) :
    w'.store.orders.find? id = some o ∧
      w'.processor.calls.count id = w.processor.calls.count id := by
  cases h with
  | elsewhere h =>
    rw [← h.sameTables.orders, h.calls]
    exact ⟨ho, rfl⟩
  | start => exact ⟨ho, rfl⟩
  | stage h _ hs =>
    rw [h.store.orders, h.calls, List.count_append]
    refine ⟨ho, ?_⟩
    have hview := hw _ (Store.current_opened h.store.before)
    cases hs with
    | rows | refuse | accept | readmit => rfl
    | @attempt o' now m outcome _ ho' hpending ha =>
      -- The processor is called for a pending order only.
      have hne : o'.id ≠ id := by
        rintro rfl
        rw [hview.processed ho hstatus, Option.some.injEq] at ho'
        rw [← ho', hstatus] at hpending
        cases hpending
      simp [hne]
  | commit htx =>
    have hview := hw _ (Store.current_opened htx)
    refine ⟨?_, rfl⟩
    change (w.store.absorb _).orders.find? id = some o
    rw [Store.orders_absorb (horderly.each htx)]
    exact hview.processed ho hstatus
  | close => exact ⟨ho, rfl⟩

/-- A processed order is left alone for good. -/
theorem Reached.processed_stays (h : Reached w j) (hsteps : Steps (w, j) (w', j'))
    (hids : w'.ids.Lasts) (ho : w.store.orders.find? id = some o)
    (hstatus : o.status = .processed) :
    w'.store.orders.find? id = some o ∧
      w'.processor.calls.count id = w.processor.calls.count id := by
  have heffects := hsteps.effects h.orderly
  have hkeep := Effects.keep (P := fun w₁ _ => w₁.Sound ∧ w₁.store.orders.find? id = some o ∧
      w₁.processor.calls.count id = w.processor.calls.count id) heffects
    (fun horderly hids heffect ⟨hsound, hcommitted, hcount⟩ => by
      have hstays := heffect.processed_stays horderly hsound hcommitted hstatus
      exact ⟨heffect.sound horderly hids hsound, hstays.1, hstays.2.trans hcount⟩)
    h.orderly hids ⟨h.sound (hids.mono heffects.ids_le), ho, rfl⟩
  exact hkeep.2

/-! ## Processed orders in open transactions -/

/-- Whatever a transaction stages, an order that it sees as processed stays so. -/
theorem Stages.processed_stays {s : Store} {ids ids' : IdSupply} {tx' : Transaction}
    {called : List OrderId} {c : Option (OrderId × Change)}
    (hs : Stages s ids ids' tx called c tx') (hview : SoundFor s ids tx) (hlasts : ids'.Lasts)
    (ho : s.orderIn tx id = some o) (hstatus : o.status = .processed) :
    s.orderIn tx' id = some o := by
  have announced {mode : PublishMode} {ids₁ : IdSupply} {order : OrderId}
      {correlation : Option String} {now : Instant} {tx₁ : Transaction}
      (hann : Announced mode ids₁ ids' order correlation now tx₁ tx') :
      s.orderIn tx' id = s.orderIn tx₁ id :=
    Store.orderIn_congr (congrArg (·.find? id) hann.orders)
  -- An order that changes is not processed, so it is another one.
  have hother {o' : Order} (ho' : s.orderIn tx o'.id = some o') (hne : o'.status ≠ .processed) :
      o'.id ≠ id := by
    rintro rfl
    rw [ho, Option.some.injEq] at ho'
    exact hne (ho' ▸ hstatus)
  cases hs with
  | rows horders _ => exact (Store.orderIn_congr (congrArg (·.find? id) horders)).trans ho
  | refuse _ => exact (orderIn_withoutLetter s tx _ id).trans ho
  | @accept mode k ids₁ correlation now _ hle hlt hids hann =>
    have hk : k < 2 ^ 122 := Nat.lt_of_lt_of_le (Nat.lt_of_lt_of_le hlt hids) hlasts
    have hne : (⟨.versionFour k⟩ : OrderId) ≠ id := by
      rintro rfl
      exact IdSupply.not_hasDrawn hle hk (hview.drawn ho)
    rw [announced hann]
    simpa [hne] using ho
  | readmit ho' hfailed _ hann =>
    have hne := hother ho' (by simp [hfailed])
    rw [announced hann]
    simpa [hne] using ho
  | attempt ho' hpending ha =>
    have hne := hother ho' (by simp [hpending])
    cases ha <;> simpa [hne] using ho

/-- **Shown as processed**: transaction `t` sees the order as processed, if it is
    still open. -/
structure World.ShowsProcessed (w : World) (t : TxId) (id : OrderId) : Prop where
  begun : t < w.store.nextTx
  shown : ∀ {tx}, w.store.opened.find? t = some tx →
    ∃ o, w.store.orderIn tx id = some o ∧ o.status = .processed

/-- What a transaction sees as processed, it sees so until its end, whatever
    the others commit meanwhile. -/
theorem Effect.shows_processed (h : Effect (w, j) (w', j')) (horderly : w.store.Orderly)
    (hids : w'.ids.Lasts) (hw : w.Sound) (hshows : w.ShowsProcessed t id) :
    w'.ShowsProcessed t id := by
  cases h with
  | elsewhere h =>
    obtain ⟨b, hb⟩ := h.store
    refine ⟨?_, fun {tx} htx => ?_⟩
    · rw [hb]
      exact hshows.begun
    · rw [h.opened] at htx
      rw [← h.sameTables.orderIn]
      exact hshows.shown htx
  | start =>
    refine ⟨Nat.lt_succ_of_lt hshows.begun, fun {tx} htx => ?_⟩
    rw [Store.opened_begun, if_neg (Nat.ne_of_gt hshows.begun)] at htx
    exact hshows.shown htx
  | @stage _ _ _ u _ _ tx₁ tx₂ h _ hs =>
    refine ⟨?_, fun {tx} htx => ?_⟩
    · rw [h.store.nextTx]
      exact hshows.begun
    · rw [← h.store.sameTables.orderIn]
      by_cases hut : t = u
      · subst hut
        rw [h.store.after, Option.some.injEq] at htx
        subst htx
        obtain ⟨o, ho, hstatus⟩ := hshows.shown h.store.before
        have hview := hw _ (Store.current_opened h.store.before)
        exact ⟨o, hs.processed_stays hview hids ho hstatus, hstatus⟩
      · rw [h.store.others hut] at htx
        exact hshows.shown htx
  | @commit _ _ u tx₁ hu =>
    refine ⟨hshows.begun, fun {tx} htx => ?_⟩
    obtain ⟨hne, htx⟩ := Store.opened_of_close htx
    obtain ⟨o, ho, hstatus⟩ := hshows.shown htx
    obtain ⟨-, -, -, hview⟩ | ⟨-, hcommitted, hview⟩ := horderly.orderIn_absorb hu htx hne id
    · exact ⟨o, hview.trans ho, hstatus⟩
    · -- Without the order's lock it has seen what is committed, and so does the other one.
      have hsound := hw _ (Store.current_opened hu)
      exact ⟨o, hview.trans (hsound.processed (hcommitted ▸ ho) hstatus), hstatus⟩
  | close hu =>
    refine ⟨hshows.begun, fun {tx} htx => ?_⟩
    exact hshows.shown (Store.opened_of_close htx).2

theorem Reached.shows_processed (h : Reached w j) (hsteps : Steps (w, j) (w', j'))
    (hids : w'.ids.Lasts) (hshows : w.ShowsProcessed t id) : w'.ShowsProcessed t id := by
  have heffects := hsteps.effects h.orderly
  have hkeep := Effects.keep (P := fun w _ => w.Sound ∧ w.ShowsProcessed t id) heffects
    (fun horderly hids heffect ⟨hsound, hshows⟩ =>
      ⟨heffect.sound horderly hids hsound, heffect.shows_processed horderly hids hsound hshows⟩)
    h.orderly hids ⟨h.sound (hids.mono heffects.ids_le), hshows⟩
  exact hkeep.2

/-! ## Signals for settled orders -/

theorem Store.holdOrder_free {s : Store} (htx : s.opened.find? t = some tx)
    (hfree : s.lockable t (.order id) = true) :
    Store.holdOrder t id s = some (.ok (s.orderIn tx id), s.take t (.order id)) := by
  rw [Store.holdOrder_eq]
  unfold Store.underLock
  simp only [htx, hfree, if_true, Store.orderIn_hold]
  rw [Store.update_of_opened (Store.opened_take htx _)]

/-- **A signal for an order that a transaction sees as settled** is answered
    from its status; only the lock is taken. -/
theorem processIn_settled {now : Instant} {m : Nat} (htx : w.store.opened.find? t = some tx)
    (hfree : w.store.lockable t (.order id) = true) (ho : w.store.orderIn tx id = some o)
    (hsettled : o.status.isSettled = true) : processIn t id now m w =
      some (.ok o.passedOver, { w with store := w.store.take t (.order id) }) := by
  have hhold : Call.inStore (Store.holdOrder t id) w =
      some (.ok (some o), { w with store := w.store.take t (.order id) }) := by
    refine Attempt.mapError_eq_some_iff.mpr ⟨.ok (some o), ?_, rfl⟩
    refine Attempt.onPart_eq_some_iff.mpr ⟨_, ?_, rfl⟩
    rw [Store.holdOrder_free htx hfree, ho]
  unfold processIn
  rw [Attempt.bind_apply, hhold]
  cases hstatus : o.status with
  | pending | processing =>
    rw [hstatus] at hsettled
    cases hsettled
  | processed | failed => simp [hstatus, Order.passedOver]

/-- What an attempt does to a transaction that has seen its order as settled. -/
theorem processIn_settled_works {now : Instant} {m : Nat} {r : Except OperationError Outcome}
    (horderly : w.store.Orderly) (htx : w.store.opened.find? t = some tx)
    (ho : w.store.orderIn tx id = some o) (hsettled : o.status.isSettled = true)
    (h : processIn t id now m w = some (r, w')) :
    r = .ok o.passedOver ∧ Works t [] w tx w' (tx.hold (.order id)) := by
  obtain ⟨tx₁, hcases⟩ := processIn_works horderly h
  obtain ⟨hnone, -, hworks⟩ | ⟨o', ho', -, rfl, hworks⟩ |
    ⟨o', outcome, tx', ho', -, hstatus, -, -, hworks⟩ := hcases
  all_goals obtain rfl := hworks.store.tx_eq htx
  · rw [ho] at hnone
    cases hnone
  · rw [ho, Option.some.injEq] at ho'
    exact ⟨by rw [ho'], hworks⟩
  · rw [ho, Option.some.injEq] at ho'
    rw [ho', hstatus] at hsettled
    cases hsettled

/-- Neither orders nor dead letters are written, and the processor is not
    called. -/
structure World.Untouched (w w' : World) : Prop where
  orders : w'.store.orders = w.store.orders
  deadLetters : w'.store.deadLetters = w.store.deadLetters
  calls : w'.processor.calls = w.processor.calls

/-- A transaction of its own whose body stages neither orders nor letters. -/
theorem Call.transact_untouched {α : Type} {body : TxId → Call α} {r : Except OperationError α}
    {P : Except OperationError α → Prop} (horderly : w.store.Orderly)
    (hbody : ∀ {t w₁ w₂ rb}, w₁.store.Orderly → w₁.store.opened.find? t = some {} →
      w.store.SameTables w₁.store → body t w₁ = some (rb, w₂) →
      P rb ∧ ∃ tx', Works t [] w₁ {} w₂ tx' ∧ tx'.orders = [] ∧ tx'.deadLetters = [])
    (h : transact body w = some (r, w')) :
    (P r ∨ r = .error (.store Store.offline)) ∧ Untouched w w' := by
  obtain ⟨e, hstart, rfl⟩ | ⟨t, w₁, hstart, hrest⟩ := transact_eq_some h
  · obtain ⟨rfl, helse⟩ := start_error hstart
    have hsame := helse.sameTables
    exact ⟨Or.inr rfl, hsame.orders.symm, hsame.deadLetters.symm, helse.calls⟩
  obtain ⟨hopened, hsame, hcalls, hkeep⟩ := start_ok hstart
  have horderly₁ := hkeep horderly
  obtain ⟨a, w₂, r', hrun, hcommit, rfl⟩ | ⟨e, w₂, hrun, habandon, rfl⟩ := hrest
  · obtain ⟨hP, tx', hworks, horders, hletters⟩ := hbody horderly₁ hopened hsame hrun
    obtain ⟨hcalls', hend⟩ := commit_ends hworks.store.after hcommit
    have hcalls'' : w'.processor.calls = w.processor.calls := by
      rw [hcalls', hworks.calls, List.append_nil, hcalls]
    have hsame₂ := hsame.trans hworks.store.sameTables
    -- With nothing staged for the two tables a commit leaves them as they are.
    obtain ⟨rfl, hsame₃⟩ | ⟨rfl, hsame₃⟩ := hend
    · refine ⟨Or.inl hP, ?_, ?_, hcalls''⟩
      · rw [hsame₂.orders, ← hsame₃.orders]
        simp [Store.absorb, horders, Table.putAll]
      · rw [hsame₂.deadLetters, ← hsame₃.deadLetters]
        simp [Store.absorb, hletters, Table.settle]
    · have hsame' := hsame₂.trans hsame₃
      exact ⟨Or.inr rfl, hsame'.orders.symm, hsame'.deadLetters.symm, hcalls''⟩
  · obtain ⟨hP, tx', hworks, -, -⟩ := hbody horderly₁ hopened hsame hrun
    obtain ⟨tx₁, -, -, rfl⟩ := abandon_eq_some habandon
    have hsame' := (hsame.trans hworks.store.sameTables).trans (Store.sameTables_close _ t)
    refine ⟨Or.inl hP, hsame'.orders.symm, hsame'.deadLetters.symm, ?_⟩
    change w₂.processor.calls = w.processor.calls
    rw [hworks.calls, List.append_nil, hcalls]

/-- An attempt on a settled order in a transaction of its own. -/
theorem process_settled {m : Nat} {r : Except OperationError Outcome}
    (horderly : w.store.Orderly) (ho : w.store.orders.find? id = some o)
    (hsettled : o.status.isSettled = true) (h : process id m w = some (r, w')) :
    (r = .ok o.passedOver ∨ r = .error (.store Store.offline)) ∧ Untouched w w' := by
  refine Call.transact_untouched (P := (· = .ok o.passedOver)) horderly ?_ h
  intro t w₁ w₂ rb horderly₁ hopened hsame hrun
  have hview : w₁.store.orderIn {} id = some o := by
    rw [← hsame.orderIn]
    exact ho
  obtain ⟨hr, hworks⟩ := processIn_settled_works horderly₁ hopened hview hsettled hrun
  exact ⟨hr, _, hworks, by simp, by simp⟩

/-- Such an attempt is answered, unless the store is unavailable or another
    transaction has the order's lock. -/
theorem process_answers {m : Nat} (hd : w.disturbances = []) (ha : w.store.available = true)
    (hlock : w.store.locks.find? (.order id) = none)
    (ho : w.store.orders.find? id = some o) (hsettled : o.status.isSettled = true) :
    ∃ w', process id m w = some (.ok o.passedOver, w') := by
  have hopened : w.store.begun.opened.find? w.store.nextTx = some {} := by
    simp [Store.opened_begun]
  have hfree : w.store.begun.lockable w.store.nextTx (.order id) = true := by
    rw [Store.lockable_iff]
    intro u hu
    change w.store.locks.find? (.order id) = some u at hu
    rw [hlock] at hu
    cases hu
  have hview : w.store.begun.orderIn {} id = some o := ho
  have havailable : (w.store.begun.take w.store.nextTx (.order id)).available = true := by
    unfold Store.take
    simp only [hopened]
    split <;> exact ha
  have hlocked := Store.opened_take hopened (.order id)
  have hcommit := Call.commit_of_available
    (w := { w with store := w.store.begun.take w.store.nextTx (.order id) }) hd havailable hlocked
  refine ⟨_, Call.transact_of_ok (Call.start_of_available hd ha) ?_ hcommit⟩
  refine Attempt.bind_eq_ok_iff.mpr ⟨_, _, rfl, ?_⟩
  exact processIn_settled hopened hfree hview hsettled

/-- An attempt on the settled order of an outbox row, which settles the row. -/
theorem settle_settled {p : OutboxProcessor} {e : OutboxRow} {now : Instant}
    {r : Except OperationError Outcome} (horderly : w.store.Orderly)
    (ho : w.store.orders.find? e.order = some o) (hsettled : o.status.isSettled = true)
    (h : p.settle e now w = some (r, w')) :
    (r = .ok o.passedOver ∨ ∃ cause, r = .error (.store cause)) ∧ Untouched w w' := by
  have huntouched := Call.transact_untouched
    (P := fun r => r = .ok o.passedOver ∨ ∃ cause, r = .error (.store cause)) horderly ?_ h
  · exact ⟨huntouched.1.elim id fun hr => Or.inr ⟨_, hr⟩, huntouched.2⟩
  intro t w₁ w₂ rb horderly₁ hopened hsame hrun
  have hview : w₁.store.orderIn {} e.order = some o := by
    rw [← hsame.orderIn]
    exact ho
  -- The row is changed on top of the answer; if it is gone, the store says so.
  obtain ⟨outcome, w₃, rs, hprocess, hsettle, hr⟩ | ⟨cause, hprocess, rfl⟩ :=
    OutboxProcessor.settleIn_eq_some hrun
  · obtain ⟨hanswer, hworks⟩ :=
      processIn_settled_works horderly₁ hopened hview hsettled hprocess
    cases hanswer
    obtain ⟨r₀, s', hs, rfl, rfl⟩ := Call.inStore_eq_some hsettle
    obtain ⟨tx, ⟨-, rfl, hp⟩ | ⟨row, -, rfl, hp⟩⟩ := Store.changeRow_eq_some hs
    all_goals
      obtain rfl := hp.tx_eq hworks.store.after
      refine ⟨?_, _, hworks.trans (Call.works_inStore hp), by simp [Transaction.putRow],
        by simp [Transaction.putRow]⟩
    · exact Or.inr ⟨_, hr⟩
    · exact Or.inl hr
  · obtain ⟨hr, hworks⟩ := processIn_settled_works horderly₁ hopened hview hsettled hprocess
    cases hr

theorem World.Untouched.elsewhere {w'' : World} (h : Untouched w w') (he : Elsewhere w' w'') :
    Untouched w w'' where
  orders := he.sameTables.orders.symm.trans h.orders
  deadLetters := he.sameTables.deadLetters.symm.trans h.deadLetters
  calls := he.calls.trans h.calls

/-- A message about a settled order. -/
theorem handle_settled {c : MessageConsumer} {d : Delivery} {r : Except OperationError Reception}
    (horderly : w.store.Orderly) (ho : w.store.orders.find? id = some o)
    (hsettled : o.status.isSettled = true) (h : c.handle d id w = some (r, w')) :
    (r = .ok (.attempted o.passedOver) ∨ r = .ok .errored) ∧ Untouched w w' := by
  obtain ⟨r₁, w₁, hprocess, hrest⟩ := Attempt.outcome_bind_eq_some h
  obtain ⟨rfl | rfl, huntouched⟩ := process_settled horderly ho hsettled hprocess
  · -- Only the message of a processed order is acknowledged.
    cases houtcome : o.passedOver with
    | processed =>
      rw [houtcome] at hrest
      obtain ⟨r₂, w₂, hack, hpure⟩ := Attempt.outcome_bind_eq_some hrest
      cases hpure
      exact ⟨Or.inl rfl, huntouched.elsewhere (Call.moves_acknowledge _ _ _ _ hack)⟩
    | retry | failed =>
      rw [houtcome] at hrest
      cases hrest
      exact ⟨Or.inl rfl, huntouched⟩
  · cases hrest
    exact ⟨Or.inr rfl, huntouched⟩

/-- **Signals for an order are passed over**, whichever way they come: they are
    answered from the order `o`, unless the store refuses, and write nothing. -/
structure PassedOver (w : World) (id : OrderId) (o : Order) : Prop where
  attempt : ∀ {m r w'}, process id m w = some (r, w') →
    (r = .ok o.passedOver ∨ r = .error (.store Store.offline)) ∧ Untouched w w'
  answers : ∀ m, w.disturbances = [] → w.store.available = true →
    w.store.locks.find? (.order id) = none → ∃ w', process id m w = some (.ok o.passedOver, w')
  settle : ∀ {p : OutboxProcessor} {e now r w'}, e.order = id → p.settle e now w = some (r, w') →
    (r = .ok o.passedOver ∨ ∃ cause, r = .error (.store cause)) ∧ Untouched w w'
  handle : ∀ {c : MessageConsumer} {d r w'}, c.handle d id w = some (r, w') →
    (r = .ok (.attempted o.passedOver) ∨ r = .ok .errored) ∧ Untouched w w'

/-- **Orders are processed exactly once in effect.**  In every run, however it
    goes and wherever it has got to:

    * no order is committed in processing;
    * a processed order stays as it is, and the processor is not called for it,
      whatever steps follow;
    * an attempt calls the processor once or not at all, and only for an order
      that its transaction sees as pending;
    * in an open transaction an attempt on a processed order, or on one that
      it sees as failed, is answered and takes a lock and nothing else;
    * so are signals for settled orders, whichever way they come.

    Whatever actions follow, they are such steps. -/
theorem processed_exactly_once (h : Reached w j) (hids : w.ids.Lasts) :
    (∀ id o, w.store.orders.find? id = some o → o.status ≠ .processing) ∧
    (∀ w' j', Steps (w, j) (w', j') → w'.ids.Lasts → ∀ id o,
      w.store.orders.find? id = some o → o.status = .processed →
        w'.store.orders.find? id = some o ∧
          w'.processor.calls.count id = w.processor.calls.count id) ∧
    (∀ t id now m r w', processIn t id now m w = some (r, w') →
      w'.processor.calls = w.processor.calls ∨
        (w'.processor.calls = w.processor.calls ++ [id] ∧
          ∃ tx o, w.store.opened.find? t = some tx ∧ w.store.orderIn tx id = some o ∧
            o.status = .pending)) ∧
    (∀ t tx id o now m, w.store.opened.find? t = some tx →
      w.store.lockable t (.order id) = true →
      (w.store.orders.find? id = some o ∧ o.status = .processed ∨
        w.store.orderIn tx id = some o ∧ o.status = .failed) →
      processIn t id now m w =
        some (.ok o.passedOver, { w with store := w.store.take t (.order id) })) ∧
    (∀ id o, w.store.orders.find? id = some o → o.status.isSettled = true →
      PassedOver w id o) ∧
    ∀ actions w', w.play actions = some w' → ∃ j', Steps (w, j) (w', j') := by
  have hsound := h.sound hids
  refine ⟨?_, ?_, ?_, ?_, ?_, fun actions w' hplay => World.play_steps hplay j⟩
  · intro id o ho
    exact (hsound _ (Store.current_empty _)).atRest ho
  · intro w' j' hsteps hids' id o ho hstatus
    exact h.processed_stays hsteps hids' ho hstatus
  · intro t id now m r w' hprocess
    obtain ⟨tx, hcases⟩ := processIn_works h.orderly hprocess
    obtain ⟨-, -, hworks⟩ | ⟨o, -, -, -, hworks⟩ |
      ⟨o, outcome, tx', ho, -, hpending, -, -, hworks⟩ := hcases
    · exact Or.inl (hworks.calls.trans (List.append_nil _))
    · exact Or.inl (hworks.calls.trans (List.append_nil _))
    · exact Or.inr ⟨hworks.calls, tx, o, hworks.store.before, ho, hpending⟩
  · rintro t tx id o now m htx hfree (⟨ho, hstatus⟩ | ⟨ho, hstatus⟩)
    · -- What is committed as processed every transaction sees as processed.
      have hview := (hsound _ (Store.current_opened htx)).processed ho hstatus
      exact processIn_settled htx hfree hview (by rw [hstatus]; rfl)
    · exact processIn_settled htx hfree ho (by rw [hstatus]; rfl)
  · intro id o ho hsettled
    refine ⟨fun hprocess => process_settled h.orderly ho hsettled hprocess,
      fun m hd ha hlock => process_answers hd ha hlock ho hsettled, ?_,
      fun hhandle => handle_settled h.orderly ho hsettled hhandle⟩
    rintro p e now r w' rfl hsettle
    exact settle_settled h.orderly ho hsettled hsettle

/-- An order that is accepted and processed. -/
theorem processed_exactly_once_processed :
    ∃ w j o, Reached w j ∧ w.ids.Lasts ∧
      w.store.orders.find? ⟨.versionFour 0⟩ = some o ∧ o.status = .processed ∧
      PassedOver w ⟨.versionFour 0⟩ o := by
  have hplay : (World.play {} [.accept .inMemory none, .process ⟨.versionFour 0⟩ 1]).map
      (fun w => ((w.store.orders.find? ⟨.versionFour 0⟩).map (·.status), w.ids.next)) =
      some (some .processed, 1) := by
    decide +kernel
  obtain ⟨w, hw, heq⟩ := Option.map_eq_some_iff.mp hplay
  obtain ⟨hfound, hnext⟩ := Prod.mk.inj heq
  obtain ⟨o, ho, hstatus⟩ := Option.map_eq_some_iff.mp hfound
  obtain ⟨j, hj⟩ := (reached_empty rfl).play hw
  have hids : w.ids.Lasts := by
    unfold IdSupply.Lasts
    omega
  obtain ⟨-, -, -, -, hpassed, -⟩ := processed_exactly_once hj hids
  exact ⟨w, j, o, hj, hids, ho, hstatus, hpassed _ o ho (by rw [hstatus]; rfl)⟩

end OrderFlow
