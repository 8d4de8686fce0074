import OrderFlow.Proofs.Run.Sound
import OrderFlow.Proofs.Run.Whole
import OrderFlow.Proofs.Transact

/-! # Orders that could not be announced

    An order is committed before it is announced, so an outage of the transport
    between the two leaves an order that is to be processed and that nobody has
    heard of.  Such an order has no dead letter, and a readmission takes an
    order with a dead letter only.  So it answers that there is none, also when
    store and transport are available again, and nothing is announced. -/

namespace OrderFlow

open World Attempt

/-! ## Left unannounced -/

/-- **An order is left unannounced**: it was accepted or readmitted, and the
    answer is that it is committed and could not be announced. -/
inductive LeavesUnannounced (mode : PublishMode) (id : OrderId) (w w' : World) : Prop where
  | accept {correlation : Option String} {cause : OperationError}
    (h : mode.accept correlation w = some (.error (.unannounced id cause), w'))
  | readmit {cause : OperationError}
    (h : mode.readmit id w = some (.error (.unannounced id cause), w'))

section unannounced
variable {w w' : World} {mode : PublishMode} {id : OrderId}

/-- A refused message leaves tables and messages as they are. -/
theorem Emits.of_error {correlation : Option String} {e : OperationError}
    (h : Emits mode id correlation w (.error e) w') :
    w.store.SameTables w'.store ∧ w'.transport.messages = w.transport.messages ∧
      ∃ cause, e = .unannounced id cause := by
  cases h with
  | untold _ hsend =>
    have hmessages := Call.trySend_messages hsend
    rw [List.append_nil] at hmessages
    exact ⟨(Call.moves_trySend _ _ _ _ hsend).sameTables, hmessages, _, rfl⟩

/-- **The order is there** and is to be processed, and no message was accepted. -/
theorem LeavesUnannounced.pending (h : LeavesUnannounced mode id w w') (hw : w.store.Orderly) :
    (∃ o, w'.store.orders.find? id = some o ∧ o.status = .pending) ∧
      w'.transport.messages = w.transport.messages := by
  -- Either way the order is written as one to be processed, and then the send is refused.
  have hwritten {o : Order} {correlation : Option String} {e : OperationError} {tx : Transaction}
      {ids : IdSupply} {w₁ : World} (hid : o.id = id) (hstatus : o.status = .pending)
      (hwrote : Wrote w [] tx w₁) (hraises : Raises w mode o correlation tx ids)
      (hemits : Emits mode id correlation w₁ (.error e) w') :
      (∃ o, w'.store.orders.find? id = some o ∧ o.status = .pending) ∧
        w'.transport.messages = w.transport.messages := by
    obtain ⟨htables, hmessages, -⟩ := hemits.of_error
    refine ⟨⟨o, ?_, hstatus⟩, hmessages.trans hwrote.around.messages⟩
    rw [← htables.orders, hwrote.orders, hraises.order, if_pos hid]
  cases h with
  | accept h =>
    rcases PublishMode.accept_ends hw h with
      ⟨hr, -⟩ | ⟨id', now, tx, w₁, r₁, -, -, hwrote, hraises, -, hemits, hr⟩
    · simp at hr
    · rcases r₁ with e | _
      · obtain ⟨-, -, cause, rfl⟩ := hemits.of_error
        cases hr
        exact hwritten rfl rfl hwrote hraises hemits
      · cases hr
  | readmit h =>
    rcases PublishMode.readmit_ends hw h with
      ⟨e, called, hr, hknown, -⟩ | ⟨o, now, tx, w₁, -, hid, -, hwrote, hraises, hemits⟩
    · cases hr
      exact absurd rfl (hknown _ _)
    · exact hwritten ((o.moved_id _ _).trans hid) rfl hwrote hraises hemits

/-- It takes steps of a run. -/
theorem LeavesUnannounced.continues (h : LeavesUnannounced mode id w w') :
    Continues (fun _ => True) w w' := by
  cases h with
  | @accept correlation cause h =>
    have hcall : Action.call (.accept mode correlation) w =
        some (.error (.unannounced id cause), w') :=
      bind_eq_some_iff.mpr (Or.inr ⟨_, h, rfl⟩)
    exact Action.continues (fun _ _ => trivial) hcall
  | readmit h =>
    have hcall : Action.call (Action.readmit mode id) w = some (_, w') := h
    exact Action.continues (fun _ _ => trivial) hcall

/-! ## Readmissions -/

/-- **Without a dead letter** there is nothing to readmit, and nothing happens. -/
theorem PublishMode.readmit_without_letter (mode : PublishMode) (horderly : w.store.Orderly)
    (hw : w.Calm) (hnone : w.store.deadLetters.find? id = none) :
    ∃ w', mode.readmit id w = some (.error (.deadLetterNotFound id), w') ∧ w.Unchanged w' := by
  obtain ⟨t, ht⟩ : ∃ t, t = w.store.nextTx := ⟨_, rfl⟩
  obtain ⟨w₁, hw₁⟩ : ∃ w₁ : World, w₁ = { w with store := w.store.begun } := ⟨_, rfl⟩
  have hstart : Call.start w = some (.ok t, w₁) := by
    rw [hw₁, ht]
    exact Call.start_of_available hw.disturbances hw.store
  have hopened : w₁.store.opened.find? t = some {} := by
    rw [hw₁, ht]
    exact (Store.opened_begun _ _).trans (if_pos rfl)
  -- The transaction sees no letter, for none is committed and none is staged.
  have hread : Store.readLetter t id w₁.store = some (.ok none, w₁.store) := by
    have hletter : w₁.store.letterIn {} id = none := by
      rw [Store.letterIn_empty, hw₁]
      exact hnone
    simp only [Store.readLetter, Store.readView, hopened, hletter]
  have hstage (now : Instant) : mode.stageReadmit t id now w₁ =
      some (.error (.deadLetterNotFound id), w₁) :=
    bind_eq_some_iff.mpr (Or.inl ⟨none, w₁, Call.inStore_of_eq_some hread, rfl⟩)
  have habandon : Call.inStore (Store.abandon t) w₁ =
      some (.ok (), { w₁ with store := w₁.store.close t }) := by
    have hs : Store.abandon t w₁.store = some (.ok (), w₁.store.close t) := by
      simp only [Store.abandon, hopened]
    exact Call.inStore_of_eq_some hs
  have hbody : (do mode.stageReadmit t id (← Call.now) : Call (List Signal)) w₁ =
      some (.error (.deadLetterNotFound id), w₁) := hstage w₁.now
  refine ⟨_, bind_eq_some_iff.mpr (Or.inr ⟨_,
    Call.transact_of_body_error hstart hbody habandon, rfl⟩), ⟨w.store.available, t + 1, ?_⟩, ?_,
    w.transport.available, ?_⟩
  · rw [hw₁, ht]
    exact horderly.close_begun
  · rw [hw₁]
  · rw [hw₁]

/-- **An order that could not be announced cannot be readmitted.**  Whenever in
    any run an order was accepted or readmitted and could not be announced, it is
    there to be processed, it has no dead letter, and no message about it was
    accepted.  When the surroundings are such that store and transport are
    available again, a readmission answers that there is no dead letter, which is
    a lasting failure, and it changes nothing. -/
theorem unannounced_orders_cannot_be_readmitted {j : Journal} (hreached : Reached w j)
    (h : LeavesUnannounced mode id w w') (hids : w'.ids.Lasts) :
    (∃ o, w'.store.orders.find? id = some o ∧ o.status = .pending) ∧
      w'.store.deadLetters.find? id = none ∧
      w'.transport.messages = w.transport.messages ∧
      ∀ e : Surroundings, (w'.inside e).Calm → ∃ v e',
        mode.readmit id (w'.inside e) = some (.error e', v) ∧ e' = .deadLetterNotFound id ∧
          e'.isLasting = true ∧ (w'.inside e).Unchanged v := by
  have horderly := hreached.orderly
  obtain ⟨⟨o, ho, hstatus⟩, hmessages⟩ := h.pending horderly
  have hlasts : w.ids.Lasts := hids.mono (h.continues.ids_le horderly)
  have hsound : w'.Sound := h.continues.sound horderly hids (hreached.sound hlasts)
  -- A letter would say that the order has failed.
  have hletter : w'.store.deadLetters.find? id = none := by
    have hagree := (hsound _ (Store.current_empty _)).agree id
    rw [Store.orderIn_empty, Store.letterIn_empty, ho] at hagree
    cases hd : w'.store.deadLetters.find? id with
    | none => rfl
    | some d =>
      rw [hd] at hagree
      have hfailed := hagree.letter_of_order.mp rfl
      rw [hstatus] at hfailed
      cases hfailed
  refine ⟨⟨o, ho, hstatus⟩, hletter, hmessages, fun e hcalm => ?_⟩
  have hinside : (w'.inside e).store.Orderly :=
    (h.continues.orderly horderly).setAvailable e.available
  obtain ⟨v, hreadmit, hunchanged⟩ := mode.readmit_without_letter hinside hcalm hletter
  exact ⟨v, _, hreadmit, rfl, rfl, hunchanged⟩

end unannounced

/-- The transport is down while an order is accepted, and comes back afterwards. -/
theorem unannounced_orders_cannot_be_readmitted_outage :
    ∃ w w' j e v, Reached w j ∧ LeavesUnannounced .transport ⟨.versionFour 0⟩ w w' ∧
      w'.ids.Lasts ∧ (w'.inside e).Calm ∧
      (∃ o, w'.store.orders.find? ⟨.versionFour 0⟩ = some o ∧ o.status = .pending) ∧
      w'.transport.messages = [] ∧
      PublishMode.transport.readmit ⟨.versionFour 0⟩ (w'.inside e) =
        some (.error (.deadLetterNotFound ⟨.versionFour 0⟩), v) ∧ v.transport.messages = [] := by
  obtain ⟨w, hw⟩ : ∃ w : World, w = { transport := { available := false } } := ⟨_, rfl⟩
  have haccept : (PublishMode.transport.accept none w).map (fun a => (a.1, a.2.ids.next)) =
      some (.error (.unannounced ⟨.versionFour 0⟩ (.transport Transport.offline)), 2) := by
    rw [hw]
    rfl
  obtain ⟨⟨r, w'⟩, haccept, heq⟩ := Option.map_eq_some_iff.mp haccept
  simp only [Prod.mk.injEq] at heq
  obtain ⟨rfl, hids⟩ := heq
  have hlasts : w'.ids.Lasts := by
    unfold IdSupply.Lasts
    omega
  have hreached : Reached w {} := reached_empty (by rw [hw])
  have hleaves : LeavesUnannounced .transport ⟨.versionFour 0⟩ w w' := .accept haccept
  obtain ⟨e, he⟩ : ∃ e : Surroundings, e = ⟨{}, true, {}, {}, fun _ _ => {}, [], 0⟩ := ⟨_, rfl⟩
  have hcalm : (w'.inside e).Calm := by
    rw [he]
    exact ⟨rfl, rfl, rfl⟩
  obtain ⟨horder, -, hmessages, hreadmit⟩ :=
    unannounced_orders_cannot_be_readmitted hreached hleaves hlasts
  obtain ⟨v, e', hv, rfl, -, hunchanged⟩ := hreadmit e hcalm
  obtain ⟨b, htransport⟩ := hunchanged.transport
  refine ⟨w, w', {}, e, v, hreached, hleaves, hlasts, hcalm, horder, ?_, hv, ?_⟩
  · rw [hmessages, hw]
  · rw [htransport, he]
    rfl

end OrderFlow
