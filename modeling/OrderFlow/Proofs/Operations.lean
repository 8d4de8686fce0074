import OrderFlow.Operation.Accept
import OrderFlow.Operation.Process
import OrderFlow.Operation.Readmit
import OrderFlow.Poll.Processing
import OrderFlow.Proofs.Call

/-! # What the operations stage

    Accepting an order, readmitting it and an attempt on it are sequences
    of calls inside one transaction.  For each of the three, one lemma says
    what the transaction sees before, what it has staged afterwards, and
    what the answer is. -/

namespace OrderFlow

open World

/-! ## Transitions -/

/-- The status that the transition leads to. -/
def Transition.target : Transition → Status
  | .start => .processing
  | .complete => .processed
  | .fail _ => .failed
  | .scheduleRetry _ | .reset _ => .pending

namespace Order

/-- The order after a transition that ends an attempt. -/
def tried (o : Order) (now : Instant) (step : Transition) : Order :=
  (o.moved now .start).moved now step

@[simp] theorem fresh_id (id : OrderId) (now : Instant) : (fresh id now).id = id := rfl

@[simp] theorem moved_id (o : Order) (now : Instant) (step : Transition) :
    (o.moved now step).id = o.id := by
  cases step <;> rfl

@[simp] theorem tried_id (o : Order) (now : Instant) (step : Transition) :
    (o.tried now step).id = o.id := by
  simp [tried]

@[simp] theorem moved_status (o : Order) (now : Instant) (step : Transition) :
    (o.moved now step).status = step.target := by
  cases step <;> rfl

@[simp] theorem tried_status (o : Order) (now : Instant) (step : Transition) :
    (o.tried now step).status = step.target := by
  simp [tried]

theorem apply_of_status {o : Order} {step : Transition} (h : o.status = step.source)
    (now : Instant) : o.apply step now = .ok (o.moved now step) := by
  unfold Order.apply
  rw [if_pos h]

theorem apply_of_ne_status {o : Order} {step : Transition} (h : o.status ≠ step.source)
    (now : Instant) : o.apply step now = .error ⟨o.id, step.verb, o.status⟩ := by
  unfold Order.apply
  rw [if_neg h]

end Order

/-- An order that is written twice is as it was written last. -/
theorem Transaction.putOrder_putOrder (tx : Transaction) {o o' : Order} (h : o.id = o'.id) :
    (tx.putOrder o).putOrder o' = tx.putOrder o' := by
  unfold putOrder
  rw [h, Table.put_put]

/-- The transaction that has locked an order and taken its dead letter out. -/
def Transaction.withoutLetter (tx : Transaction) (id : OrderId) : Transaction :=
  ((tx.hold (.order id)).hold (.deadLetter id)).putLetter id none

section withoutLetter
variable {tx : Transaction} {id : OrderId}

theorem mem_held_withoutLetter {k : LockKey} : k ∈ (tx.withoutLetter id).held ↔
    k = .deadLetter id ∨ k = .order id ∨ k ∈ tx.held := by
  change k ∈ ((tx.hold (.order id)).hold (.deadLetter id)).held ↔ _
  rw [Transaction.mem_held_hold, Transaction.mem_held_hold]

theorem order_mem_held_withoutLetter : LockKey.order id ∈ (tx.withoutLetter id).held :=
  mem_held_withoutLetter.mpr (Or.inr (Or.inl rfl))

theorem mem_held_withoutLetter_of_mem {k : LockKey} (hk : k ∈ tx.held) :
    k ∈ (tx.withoutLetter id).held :=
  mem_held_withoutLetter.mpr (Or.inr (Or.inr hk))

@[simp] theorem orderIn_withoutLetter (s : Store) (tx : Transaction) (id i : OrderId) :
    s.orderIn (tx.withoutLetter id) i = s.orderIn tx i := by
  simp [Transaction.withoutLetter]

@[simp] theorem rowIn_withoutLetter (s : Store) (tx : Transaction) (id : OrderId) (row : RowId) :
    s.rowIn (tx.withoutLetter id) row = s.rowIn tx row := by
  simp [Transaction.withoutLetter]

@[simp] theorem letterIn_withoutLetter (s : Store) (tx : Transaction) (id i : OrderId) :
    s.letterIn (tx.withoutLetter id) i = if id = i then none else s.letterIn tx i := by
  simp [Transaction.withoutLetter]

theorem deadLetters_withoutLetter (tx : Transaction) {i : OrderId} (hi : i ≠ id) :
    (tx.withoutLetter id).deadLetters.find? i = tx.deadLetters.find? i := by
  simp [Transaction.withoutLetter, Transaction.putLetter, Ne.symm hi]

end withoutLetter

section attempts
variable {t : TxId} {w w' : World} {tx : Transaction} {o : Order} {now : Instant} {m : Nat}

/-- A transition that the order's status allows only writes the order. -/
theorem Order.advance_of_status {step : Transition} (hstatus : o.status = step.source) :
    o.advance t step now =
      (do Call.inStore (Store.writeOrder t (o.moved now step)); pure (o.moved now step)) := by
  unfold Order.advance
  rw [Order.apply_of_status hstatus]
  rfl

/-- A transition of an order that the transaction holds, and what follows.  It
    happens in the store alone. -/
theorem Order.advance_bind {α : Type} {step : Transition} {f : Order → Call α}
    {r : Except OperationError α} (htx : w.store.opened.find? t = some tx)
    (hheld : LockKey.order o.id ∈ tx.held) (hstatus : o.status = step.source)
    (h : (o.advance t step now >>= f) w = some (r, w')) :
    ∃ s, Works t [] w tx { w with store := s } (tx.putOrder (o.moved now step)) ∧
      f (o.moved now step) { w with store := s } = some (r, w') := by
  rw [Order.advance_of_status hstatus, bind_assoc] at h
  obtain ⟨_, s', hs, hrest⟩ := Call.inStore_bind_eq_some (Store.answers_writeOrder t _) h
  obtain ⟨tx₀, -, hp⟩ := Store.writeOrder_eq_some hs
  obtain rfl := hp.tx_eq htx
  -- The order's lock is held, so writing the order takes none.
  rw [Order.moved_id, Transaction.hold_of_mem hheld] at hp
  rw [pure_bind] at hrest
  exact ⟨_, Call.works_inStore hp, hrest⟩

/-- How an attempt on an order ends that is not pending. -/
def Order.passedOver (o : Order) : Outcome :=
  if o.status = .processed then .processed else .failed

/-- The dead letter of an attempt that was the last. -/
def Order.letter (o : Order) (now : Instant) (reason : String) : DeadLetter where
  order := o.id
  reason := tidyReason reason
  retryCount := o.retryCount + 1
  failedAt := now

/-- **What an attempt leaves behind** on the pending order `o`, in a
    transaction that holds it, and how the attempt ends. -/
inductive Attempted (o : Order) (now : Instant) (maxRetries : Nat) (tx : Transaction) :
    Outcome → Transaction → Prop where
  /-- The processor has succeeded. -/
  | processed : Attempted o now maxRetries tx .processed (tx.putOrder (o.tried now .complete))
  /-- The processor has failed and there will be another attempt. -/
  | retry (reason : String) (h : o.retryCount + 1 < maxRetries) :
    Attempted o now maxRetries tx .retry (tx.putOrder (o.tried now (.scheduleRetry reason)))
  /-- The processor has failed for the last time. -/
  | failed (reason : String) (h : maxRetries ≤ o.retryCount + 1) :
    Attempted o now maxRetries tx .failed
      (((tx.putOrder (o.tried now (.fail reason))).hold (.deadLetter o.id)).putLetter o.id
        (some (o.letter now reason)))

/-- How an attempt ends, by why the processor has failed, if it has. -/
def Order.outcome (o : Order) (maxRetries : Nat) : Option String → Outcome
  | none => .processed
  | some _ => if o.retryCount + 1 < maxRetries then .retry else .failed

/-- The transaction after an attempt on `o`, by why the processor has failed. -/
def Transaction.concluded (tx : Transaction) (o : Order) (now : Instant) (maxRetries : Nat) :
    Option String → Transaction
  | none => tx.putOrder (o.tried now .complete)
  | some reason =>
    if o.retryCount + 1 < maxRetries then tx.putOrder (o.tried now (.scheduleRetry reason))
    else
      ((tx.putOrder (o.tried now (.fail reason))).hold (.deadLetter o.id)).putLetter o.id
        (some (o.letter now reason))

/-- Such a transaction is what an attempt leaves behind. -/
theorem attempted_concluded (o : Order) (now : Instant) (m : Nat) (tx : Transaction)
    (failure : Option String) :
    Attempted o now m tx (o.outcome m failure) (tx.concluded o now m failure) := by
  cases failure with
  | none => exact .processed
  | some reason =>
    unfold Order.outcome Transaction.concluded
    dsimp only
    split
    · next hcount => exact .retry reason hcount
    · next hcount => exact .failed reason (Nat.le_of_not_lt hcount)

/-- The order after an attempt on it, by why the processor has failed. -/
def Order.after (o : Order) (now : Instant) (maxRetries : Nat) : Option String → Order
  | none => o.tried now .complete
  | some reason =>
    if o.retryCount + 1 < maxRetries then o.tried now (.scheduleRetry reason)
    else o.tried now (.fail reason)

/-- The dead letter that the attempt leaves, if it was the last. -/
def Order.letterAfter (o : Order) (now : Instant) (maxRetries : Nat) :
    Option String → Option DeadLetter
  | none => none
  | some reason => if o.retryCount + 1 < maxRetries then none else some (o.letter now reason)

theorem Store.orderIn_concluded (s : Store) (tx : Transaction) (o : Order) (now : Instant)
    (m : Nat) (failure : Option String) (i : OrderId) :
    s.orderIn (tx.concluded o now m failure) i =
      if o.id = i then some (o.after now m failure) else s.orderIn tx i := by
  cases failure with
  | none => simp [Transaction.concluded, Order.after]
  | some reason =>
    unfold Transaction.concluded Order.after
    dsimp only
    split <;> simp

theorem Store.rowIn_concluded (s : Store) (tx : Transaction) (o : Order) (now : Instant)
    (m : Nat) (failure : Option String) (row : RowId) :
    s.rowIn (tx.concluded o now m failure) row = s.rowIn tx row := by
  cases failure with
  | none => simp [Transaction.concluded]
  | some reason =>
    unfold Transaction.concluded
    dsimp only
    split <;> simp

theorem Store.letterIn_concluded (s : Store) (tx : Transaction) (o : Order) (now : Instant)
    (m : Nat) (failure : Option String) (i : OrderId) :
    s.letterIn (tx.concluded o now m failure) i =
      if o.id = i then (o.letterAfter now m failure).or (s.letterIn tx i)
      else s.letterIn tx i := by
  cases failure with
  | none => simp [Transaction.concluded, Order.letterAfter]
  | some reason =>
    unfold Transaction.concluded Order.letterAfter
    dsimp only
    split <;> simp

theorem Call.answers_callProcessor (id : OrderId) : (callProcessor id).Answers := by
  intro w r w' h
  cases h
  exact ⟨_, rfl⟩

theorem Call.callProcessor_works {id : OrderId} {r : Except OperationError (Option String)}
    (htx : w.store.opened.find? t = some tx) (h : callProcessor id w = some (r, w')) :
    Works t [id] w tx w' tx := by
  cases h
  exact ⟨Store.progress_setAvailable htx _, rfl, Nat.le_refl _⟩

/-- What is left to do once the processor has failed. -/
theorem Order.settleFailure_works {reason : String} {r : Except OperationError Outcome}
    (htx : w.store.opened.find? t = some (tx.putOrder (o.moved now .start)))
    (hheld : LockKey.order o.id ∈ tx.held)
    (h : (o.moved now .start).settleFailure t reason now m w = some (r, w')) :
    r = .ok (o.outcome m (some reason)) ∧
      Works t [] w (tx.putOrder (o.moved now .start)) w' (tx.concluded o now m (some reason)) := by
  -- Whichever way the attempt ends, it overwrites the order in processing.
  have hput (step : Transition) : (tx.putOrder (o.moved now .start)).putOrder
      ((o.moved now .start).moved now step) = tx.putOrder (o.tried now step) :=
    tx.putOrder_putOrder (by simp)
  unfold Order.settleFailure at h
  split at h
  · next hcount =>
    have hcount : o.retryCount + 1 < m := hcount
    obtain ⟨s, hworks, hpure⟩ := Order.advance_bind htx (by simpa using hheld) rfl h
    cases hpure
    rw [hput] at hworks
    simp only [Order.outcome, Transaction.concluded, if_pos hcount]
    exact ⟨trivial, hworks⟩
  · next hcount =>
    have hcount : ¬ o.retryCount + 1 < m := hcount
    obtain ⟨s, hworks, hrest⟩ := Order.advance_bind htx (by simpa using hheld) rfl h
    rw [hput] at hworks
    obtain ⟨_, s', hs, hpure⟩ := Call.inStore_bind_eq_some (Store.answers_writeLetter t _) hrest
    cases hpure
    obtain ⟨tx₁, -, hp⟩ := Store.writeLetter_eq_some hs
    obtain rfl := hp.tx_eq hworks.store.after
    simp only [Order.outcome, Transaction.concluded, if_neg hcount]
    exact ⟨trivial, hworks.trans (Call.works_inStore hp)⟩

/-- **One attempt on a pending order** calls the processor once and ends as that
    says. -/
theorem Order.tryProcessing_works {r : Except OperationError Outcome}
    (htx : w.store.opened.find? t = some tx) (hheld : LockKey.order o.id ∈ tx.held)
    (hpending : o.status = .pending) (h : o.tryProcessing t now m w = some (r, w')) :
    ∃ failure, failure = (w.processor.react w.processor.calls o.id).failure ∧
      r = .ok (o.outcome m failure) ∧ Works t [o.id] w tx w' (tx.concluded o now m failure) := by
  have hsource : o.status = Transition.source .start := hpending
  obtain ⟨s, hworks₁, hrest⟩ := Order.advance_bind htx hheld hsource h
  obtain ⟨failure, w₂, hcall, hend⟩ := (Call.answers_callProcessor _).bind_eq_some hrest
  have hworks := hworks₁.trans (Call.callProcessor_works hworks₁.store.after hcall)
  rw [Order.moved_id] at hworks hcall
  refine ⟨failure, by cases hcall; rfl, ?_⟩
  cases failure with
  | none =>
    obtain ⟨s', hworks₃, hpure⟩ :=
      Order.advance_bind hworks.store.after (by simpa using hheld) rfl hend
    cases hpure
    rw [tx.putOrder_putOrder (by simp)] at hworks₃
    exact ⟨rfl, hworks.trans hworks₃⟩
  | some reason =>
    obtain ⟨rfl, hworks₃⟩ := Order.settleFailure_works hworks.store.after hheld hend
    exact ⟨rfl, hworks.trans hworks₃⟩

/-- **An attempt on an order**: there is none, or it is passed over, or it is
    pending and the attempt ends as the processor says. -/
theorem processIn_concludes {id : OrderId} {r : Except OperationError Outcome}
    (hw : w.store.Orderly) (h : processIn t id now m w = some (r, w')) :
    ∃ tx, (w.store.orderIn tx id = none ∧ r = .error (.orderNotFound id) ∧
        Works t [] w tx w' (tx.hold (.order id))) ∨
      (∃ o, w.store.orderIn tx id = some o ∧ o.status ≠ .pending ∧
        r = .ok o.passedOver ∧ Works t [] w tx w' (tx.hold (.order id))) ∨
      (∃ o failure, w.store.orderIn tx id = some o ∧ o.id = id ∧ o.status = .pending ∧
        failure = (w.processor.react w.processor.calls id).failure ∧ r = .ok (o.outcome m failure) ∧
        Works t [id] w tx w' ((tx.hold (.order id)).concluded o now m failure)) := by
  obtain ⟨found, s', hs, hrest⟩ := Call.inStore_bind_eq_some (Store.answers_holdOrder t id) h
  obtain ⟨tx, hr, hp⟩ := Store.holdOrder_eq_some hs
  cases hr
  have hworks : Works t [] w tx _ _ := Call.works_inStore hp
  refine ⟨tx, ?_⟩
  cases ho : w.store.orderIn tx id with
  | none =>
    rw [ho] at hrest
    cases hrest
    exact Or.inl ⟨rfl, rfl, hworks⟩
  | some o =>
    rw [ho] at hrest
    obtain rfl := hw.orderIn_id hp.before ho
    have hheld : LockKey.order o.id ∈ (tx.hold (.order o.id)).held := Transaction.mem_held_self
    refine Or.inr ?_
    -- Only a pending order reaches the processor.
    cases hstatus : o.status with
    | pending =>
      simp only [hstatus] at hrest
      obtain ⟨failure, hfailure, rfl, hworks'⟩ :=
        Order.tryProcessing_works hworks.store.after hheld hstatus hrest
      exact Or.inr ⟨o, failure, rfl, rfl, hstatus, hfailure, rfl, hworks.trans hworks'⟩
    | processed | processing | failed =>
      simp only [hstatus] at hrest
      cases hrest
      exact Or.inl ⟨o, rfl, by simp [hstatus], by simp [Order.passedOver, hstatus], hworks⟩

/-- The same, whatever the processor says. -/
theorem processIn_works {id : OrderId} {r : Except OperationError Outcome}
    (hw : w.store.Orderly) (h : processIn t id now m w = some (r, w')) :
    ∃ tx, (w.store.orderIn tx id = none ∧ r = .error (.orderNotFound id) ∧
        Works t [] w tx w' (tx.hold (.order id))) ∨
      (∃ o, w.store.orderIn tx id = some o ∧ o.status ≠ .pending ∧
        r = .ok o.passedOver ∧ Works t [] w tx w' (tx.hold (.order id))) ∨
      (∃ o outcome tx', w.store.orderIn tx id = some o ∧ o.id = id ∧ o.status = .pending ∧
        r = .ok outcome ∧ Attempted o now m (tx.hold (.order id)) outcome tx' ∧
        Works t [id] w tx w' tx') := by
  obtain ⟨tx, hnone | hpassed | ⟨o, failure, ho, hid, hstatus, -, hr, hworks⟩⟩ :=
    processIn_concludes hw h
  · exact ⟨tx, Or.inl hnone⟩
  · exact ⟨tx, Or.inr (Or.inl hpassed)⟩
  · exact ⟨tx, Or.inr (Or.inr ⟨o, _, _, ho, hid, hstatus, hr,
      attempted_concluded o now m _ failure, hworks⟩)⟩

end attempts

/-- **A relation that the calls of an attempt respect**: those on the store in
    transaction `t`, and that of the processor. -/
structure World.Attempting (t : TxId) (R : World → World → Prop) : Prop where
  chains : Attempt.Chains R
  hold : ∀ id, Attempt.Moves R (Call.inStore (Store.holdOrder t id))
  write : ∀ o, Attempt.Moves R (Call.inStore (Store.writeOrder t o))
  letter : ∀ d, Attempt.Moves R (Call.inStore (Store.writeLetter t d))
  call : ∀ id, Attempt.Moves R (Call.callProcessor id)

namespace World.Attempting

open Attempt

variable {t : TxId} {R : World → World → Prop} {now : Instant} {m : Nat}

theorem advance (h : Attempting t R) (o : Order) (step : Transition) :
    Moves R (o.advance t step now) := by
  refine ((Moves.ofExcept h.chains _).mapError _).bind h.chains fun o' => ?_
  exact (h.write o').bind h.chains fun _ => Moves.pure h.chains _

theorem settleFailure (h : Attempting t R) (o : Order) (reason : String) :
    Moves R (o.settleFailure t reason now m) := by
  unfold Order.settleFailure
  split
  · exact (h.advance o _).bind h.chains fun _ => Moves.pure h.chains _
  · refine (h.advance o _).bind h.chains fun o' => ?_
    exact (h.letter _).bind h.chains fun _ => Moves.pure h.chains _

theorem tryProcessing (h : Attempting t R) (o : Order) :
    Moves R (o.tryProcessing t now m) := by
  refine (h.advance o _).bind h.chains fun o' => ?_
  refine (h.call _).bind h.chains fun failure => ?_
  cases failure with
  | none => exact (h.advance o' _).bind h.chains fun _ => Moves.pure h.chains _
  | some reason => exact h.settleFailure o' reason

/-- **An attempt respects** what its calls respect. -/
theorem processIn (h : Attempting t R) (id : OrderId) : Moves R (processIn t id now m) := by
  refine (h.hold id).bind h.chains fun found => ?_
  cases found with
  | none => exact Moves.fail h.chains _
  | some o =>
    dsimp only
    split
    · exact h.tryProcessing o
    · exact Moves.pure h.chains _
    · exact Moves.pure h.chains _
    · exact Moves.pure h.chains _

end World.Attempting

/-! ## Announcements -/

/-- **What an announcement leaves behind**: in outbox mode a row under an id
    that was just drawn, and otherwise nothing. -/
inductive Announced (mode : PublishMode) (ids ids' : IdSupply) (order : OrderId)
    (correlation : Option String) (now : Instant) (tx : Transaction) : Transaction → Prop where
  /-- A new row. -/
  | row (k : Nat) (hmode : mode = .outbox) (hle : ids.next ≤ k) (hlt : k < ids'.next) :
    Announced mode ids ids' order correlation now tx
      ((tx.hold (.row ⟨.versionFour k⟩)).putRow ⟨.versionFour k⟩
        (.announcing ⟨.versionFour k⟩ order correlation now))
  /-- A signal for after the commit. -/
  | later (hmode : mode ≠ .outbox) : Announced mode ids ids' order correlation now tx tx

section announced
variable {mode : PublishMode} {ids₀ ids ids' : IdSupply} {order : OrderId}
  {correlation : Option String} {now : Instant} {tx tx' : Transaction}

theorem Announced.mono (h : Announced mode ids ids' order correlation now tx tx')
    (hle : ids₀.next ≤ ids.next) : Announced mode ids₀ ids' order correlation now tx tx' := by
  cases h with
  | row k hmode hk hlt => exact .row k hmode (Nat.le_trans hle hk) hlt
  | later hmode => exact .later hmode

/-- An announcement touches neither orders nor dead letters. -/
theorem Announced.orders (h : Announced mode ids ids' order correlation now tx tx') :
    tx'.orders = tx.orders := by
  cases h with
  | row k => exact tx.hold_orders _
  | later => rfl

theorem Announced.deadLetters (h : Announced mode ids ids' order correlation now tx tx') :
    tx'.deadLetters = tx.deadLetters := by
  cases h with
  | row k => exact tx.hold_deadLetters _
  | later => rfl

theorem Announced.keeps (h : Announced mode ids ids' order correlation now tx tx')
    {key : LockKey} (hk : key ∈ tx.held) : key ∈ tx'.held := by
  cases h with
  | row k => exact Transaction.mem_held_of_mem hk
  | later => exact hk

end announced

namespace PublishMode

variable {mode : PublishMode} {t : TxId} {w w' : World} {tx : Transaction} {now : Instant}
  {correlation : Option String}

/-- The signals that are left for after the commit. -/
def pending (mode : PublishMode) (order : OrderId) (correlation : Option String) : List Signal :=
  match mode with
  | .outbox => []
  | .inMemory | .transport => [⟨order, correlation⟩]

theorem announce_works {order : OrderId} {r : Except OperationError (List Signal)}
    (htx : w.store.opened.find? t = some tx)
    (h : mode.announce t order correlation now w = some (r, w')) :
    ∃ tx', r = .ok (mode.pending order correlation) ∧
      Announced mode w.ids w'.ids order correlation now tx tx' ∧ Works t [] w tx w' tx' := by
  cases mode with
  | outbox =>
    obtain ⟨id, w₁, hfresh, hrest⟩ := Call.answers_freshId.bind_eq_some h
    cases hfresh
    obtain ⟨_, s', hs, hpure⟩ := Call.inStore_bind_eq_some (Store.answers_writeRow t _) hrest
    cases hpure
    obtain ⟨tx₀, -, hp⟩ := Store.writeRow_eq_some hs
    obtain rfl := hp.tx_eq htx
    exact ⟨_, rfl, .row w.ids.next rfl (Nat.le_refl _) (Nat.lt_succ_self _),
      hp, (List.append_nil _).symm, Nat.le_succ _⟩
  | inMemory | transport =>
    cases h
    exact ⟨_, rfl, .later (by decide), (elsewhere_chains.refl w).works htx⟩

/-! ## Accepting -/

/-- **A new order** is written under an id that was just drawn, and announced. -/
theorem stageAccept_works {r : Except OperationError (OrderId × List Signal)}
    (h : mode.stageAccept t correlation now w = some (r, w')) :
    ∃ tx tx' ids', r = .ok (⟨.versionFour w.ids.next⟩,
        mode.pending ⟨.versionFour w.ids.next⟩ correlation) ∧
      w.ids.next < ids'.next ∧ ids'.next ≤ w'.ids.next ∧
      Announced mode ids' w'.ids ⟨.versionFour w.ids.next⟩ correlation now
        ((tx.hold (.order ⟨.versionFour w.ids.next⟩)).putOrder
          (.fresh ⟨.versionFour w.ids.next⟩ now)) tx' ∧
      Works t [] w tx w' tx' := by
  obtain ⟨id, w₁, hfresh, hrest⟩ := Call.answers_freshId.bind_eq_some h
  have hdraw := Call.moves_freshId _ _ _ hfresh
  cases hfresh
  obtain ⟨_, s', hs, hann⟩ := Call.inStore_bind_eq_some (Store.answers_writeOrder t _) hrest
  obtain ⟨tx, -, hp⟩ := Store.writeOrder_eq_some hs
  have hwritten := (hdraw.works hp.before).trans (Call.works_inStore hp)
  obtain ⟨signals, w₃, hann, hpure⟩ | ⟨e, hann, -⟩ := Attempt.bind_eq_some_iff.mp hann
  all_goals obtain ⟨tx', hr, hannounced, hworks⟩ := announce_works hp.after hann
  · cases hpure
    cases hr
    exact ⟨tx, tx', _, rfl, Nat.lt_succ_self _, hworks.ids, hannounced, hwritten.trans hworks⟩
  · cases hr

/-! ## Readmitting -/

/-- What a readmission does once it has seen a dead letter.  Others may have
    committed since. -/
def readmitFound (mode : PublishMode) (t : TxId) (id : OrderId) (now : Instant) :
    Call (List Signal) := do
  match ← Call.inStore (Store.holdOrder t id) with
  | none => Attempt.fail (.orderNotFound id)
  | some o =>
    if ← Call.inStore (Store.dropLetter t id) then
      let o ← .mapError .transition (.ofExcept (o.apply (.reset readmitReason) now))
      Call.inStore (Store.writeOrder t o)
      mode.announce t id none now
    else
      Attempt.fail (.deadLetterNotFound id)

theorem stageReadmit_eq_some {id : OrderId} {r : Except OperationError (List Signal)}
    (h : mode.stageReadmit t id now w = some (r, w')) :
    ∃ tx, w.store.opened.find? t = some tx ∧
      ((w.store.letterIn tx id = none ∧ r = .error (.deadLetterNotFound id) ∧ w' = w) ∨
        ((w.store.letterIn tx id).isSome ∧ mode.readmitFound t id now w = some (r, w'))) := by
  obtain ⟨found, s', hs, hrest⟩ := Call.inStore_bind_eq_some (Store.answers_readView t _) h
  obtain ⟨tx, htx, hr, rfl⟩ := Store.readView_eq_some hs
  cases hr
  refine ⟨tx, htx, ?_⟩
  cases hd : w.store.letterIn tx id with
  | none =>
    rw [hd] at hrest
    cases hrest
    exact Or.inl ⟨rfl, rfl, rfl⟩
  | some d =>
    rw [hd] at hrest
    exact Or.inr ⟨rfl, hrest⟩

/-- **A readmission** finds no order, or the dead letter gone, or puts a
    failed order back and announces it. -/
theorem readmitFound_works {id : OrderId} {r : Except OperationError (List Signal)}
    (hw : w.store.Orderly) (h : mode.readmitFound t id now w = some (r, w')) :
    ∃ tx, (w.store.orderIn tx id = none ∧ r = .error (.orderNotFound id) ∧
        Works t [] w tx w' (tx.hold (.order id))) ∨
      (∃ o, w.store.orderIn tx id = some o ∧
        ((w.store.letterIn tx id = none ∨ o.status ≠ .failed) ∧
            (∃ e, r = .error e ∧ ∀ order cause, e ≠ .unannounced order cause) ∧
            Works t [] w tx w' (tx.withoutLetter id) ∨
          (w.store.letterIn tx id).isSome ∧ o.id = id ∧ o.status = .failed ∧
            ∃ tx', r = .ok (mode.pending id none) ∧
              Announced mode w.ids w'.ids id none now
                ((tx.withoutLetter id).putOrder (o.moved now (.reset readmitReason))) tx' ∧
              Works t [] w tx w' tx')) := by
  obtain ⟨found, s', hs, hrest⟩ := Call.inStore_bind_eq_some (Store.answers_holdOrder t id) h
  obtain ⟨tx, hr, hp⟩ := Store.holdOrder_eq_some hs
  cases hr
  refine ⟨tx, ?_⟩
  cases ho : w.store.orderIn tx id with
  | none =>
    rw [ho] at hrest
    cases hrest
    exact Or.inl ⟨rfl, rfl, Call.works_inStore hp⟩
  | some o =>
    rw [ho] at hrest
    refine Or.inr ⟨o, rfl, ?_⟩
    obtain ⟨existed, s'', hs', hend⟩ :=
      Call.inStore_bind_eq_some (Store.answers_dropLetter t id) hrest
    obtain ⟨tx₀, hr, hp'⟩ := Store.dropLetter_eq_some hs'
    obtain rfl := hp'.tx_eq hp.after
    cases hr
    have hworks : Works t [] w tx _ (tx.withoutLetter id) := Call.works_inStore (hp.trans hp')
    -- The order's lock has not changed what the transaction sees of the letter.
    rw [Store.letterIn_hold, ← hp.sameTables.letterIn] at hend
    cases hd : w.store.letterIn tx id with
    | none =>
      rw [hd] at hend
      cases hend
      exact Or.inl ⟨Or.inl rfl, ⟨_, rfl, by simp⟩, hworks⟩
    | some d =>
      rw [hd] at hend
      -- From here on it is a transition and then the announcement.
      have hadvance : (o.advance t (.reset readmitReason) now >>= fun _ =>
          mode.announce t id none now) { w with store := s'' } = some (r, w') := by
        unfold Order.advance
        simp only [bind_assoc, pure_bind]
        exact hend
      by_cases hstatus : o.status = .failed
      · have hid := hw.orderIn_id hp.before ho
        have hsource : o.status = Transition.source (.reset readmitReason) := hstatus
        have hheld : LockKey.order o.id ∈ (tx.withoutLetter id).held := by
          rw [hid]
          exact order_mem_held_withoutLetter
        obtain ⟨s₃, hreset, hann⟩ := Order.advance_bind hworks.store.after hheld hsource hadvance
        have hreset := hworks.trans hreset
        obtain ⟨tx', rfl, hannounced, hworks'⟩ := announce_works hreset.store.after hann
        exact Or.inr ⟨rfl, hid, hstatus, tx', rfl, hannounced.mono hreset.ids,
          hreset.trans hworks'⟩
      · -- The transition is refused; the letter is taken out all the same.
        refine Or.inl ⟨Or.inr hstatus, ?_⟩
        unfold Order.advance at hadvance
        rw [Order.apply_of_ne_status hstatus] at hadvance
        cases hadvance
        exact ⟨⟨_, rfl, by simp⟩, hworks⟩

end PublishMode

/-! ## Settling rows -/

/-- What the end of an attempt makes of the row that has led to it. -/
def OutboxProcessor.settled (p : OutboxProcessor) (e : OutboxRow) (now : Instant) :
    Outcome → OutboxRow → OutboxRow
  | .processed, row => row.complete now
  | .retry, row => row.postpone (now.later (p.retry.delayBefore (e.attempts + 1))) "retry"
  | .failed, row => row.giveUp now "failed"

theorem OutboxProcessor.settleRow_eq (p : OutboxProcessor) (t : TxId) (e : OutboxRow)
    (now : Instant) (outcome : Outcome) :
    p.settleRow t e now outcome = Store.changeRow t e.id (p.settled e now outcome) := by
  cases outcome <;> rfl

theorem OutboxProcessor.settled_keepsId (p : OutboxProcessor) (e : OutboxRow) (now : Instant)
    (outcome : Outcome) : Store.KeepsId (p.settled e now outcome) := by
  intro row
  cases outcome <;> rfl

/-- What the transaction of a claimed row does. -/
def OutboxProcessor.settleIn (p : OutboxProcessor) (e : OutboxRow) (now : Instant) (t : TxId) :
    Call Outcome := do
  let outcome ← processIn t e.order now p.maxRetries
  Call.inStore (p.settleRow t e now outcome)
  pure outcome

/-- The transaction ends with the change of the row, or with an attempt that
    has failed. -/
theorem OutboxProcessor.settleIn_eq_some {p : OutboxProcessor} {e : OutboxRow} {now : Instant}
    {t : TxId} {w w' : World} {r : Except OperationError Outcome}
    (h : p.settleIn e now t w = some (r, w')) :
    (∃ outcome w₁ r', processIn t e.order now p.maxRetries w = some (.ok outcome, w₁) ∧
        Call.inStore (Store.changeRow t e.id (p.settled e now outcome)) w₁ = some (r', w') ∧
        r = r'.map fun _ => outcome) ∨
      ∃ cause, processIn t e.order now p.maxRetries w = some (.error cause, w') ∧
        r = .error cause := by
  obtain ⟨outcome, w₁, hprocess, hrest⟩ | hfailed := Attempt.bind_eq_some_iff.mp h
  · refine Or.inl ⟨outcome, w₁, ?_⟩
    rw [OutboxProcessor.settleRow_eq] at hrest
    obtain ⟨_, w₂, hsettle, hpure⟩ | ⟨cause, hsettle, rfl⟩ := Attempt.bind_eq_some_iff.mp hrest
    · cases hpure
      exact ⟨_, hprocess, hsettle, rfl⟩
    · exact ⟨_, hprocess, hsettle, rfl⟩
  · exact Or.inr hfailed

end OrderFlow
