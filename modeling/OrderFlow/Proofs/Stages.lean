import OrderFlow.Proofs.Transact

/-! # The operations up to their commit

    What the bodies of the three operations do from a state in which nobody
    holds a row that they need (`World.Ready`): none of them waits, an
    attempt leaves nothing that was not there before, and of an order that
    is accepted or readmitted it is known exactly what has been staged. -/

namespace OrderFlow

open Attempt

/-! ## An attempt -/

section attempts
variable {t : TxId} {id : OrderId} {P P' : World → Prop} {o : Order} {now : Instant} {m : Nat}

/-- **An attempt goes through** in transaction `t`: its calls do not wait, `P` holds
    until the processor is called, and `P'` afterwards. -/
structure World.Admits (t : TxId) (id : OrderId) (P P' : World → Prop) : Prop where
  hold : Total P (Call.inStore (Store.holdOrder t id))
    (fun found w => P w ∧ ∀ o, found = some o → o.id = id) (fun _ _ => False)
  write : ∀ o, o.id = id →
    Total P (Call.inStore (Store.writeOrder t o)) (fun _ => P) (fun _ _ => False)
  call : Total P (Call.callProcessor id) (fun _ => P') (fun _ _ => False)
  writeAfter : ∀ o, o.id = id →
    Total P' (Call.inStore (Store.writeOrder t o)) (fun _ => P') (fun _ _ => False)
  letter : ∀ d, d.order = id →
    Total P' (Call.inStore (Store.writeLetter t d)) (fun _ => P') (fun _ _ => False)

namespace World.Admits

/-- A transition that the order's status allows. -/
theorem advance {step : Transition}
    (h : Total P (Call.inStore (Store.writeOrder t (o.moved now step))) (fun _ => P)
      (fun _ _ => False)) (hstatus : o.status = step.source) :
    Total P (o.advance t step now) (fun o' w => o' = o.moved now step ∧ P w)
      (fun _ _ => False) := by
  rw [Order.advance_of_status hstatus]
  exact h.bind_pure fun _ _ hw => ⟨rfl, hw⟩

theorem settleFailure (h : Admits t id P P') (hid : o.id = id) (hstatus : o.status = .processing)
    (reason : String) :
    Total P' (o.settleFailure t reason now m) (fun _ => P') (fun _ _ => False) := by
  have hwrite (step : Transition) := h.writeAfter (o.moved now step) (by rw [Order.moved_id, hid])
  unfold Order.settleFailure
  split
  · have hsource : o.status = Transition.source (.scheduleRetry reason) := hstatus
    exact (advance (hwrite _) hsource).bind_pure fun _ _ hw => hw.2
  · have hsource : o.status = Transition.source (.fail reason) := hstatus
    refine (advance (hwrite _) hsource).bind fun o' => ?_
    rintro w ⟨rfl, hw⟩
    refine Total.bind (h.letter _ ?_) (fun _ => Total.pure fun _ hw => hw) w hw
    rw [Order.moved_id, hid]

/-- An attempt on a pending order. -/
theorem tryProcessing (h : Admits t id P P') (hid : o.id = id) (hstatus : o.status = .pending) :
    Total P (o.tryProcessing t now m) (fun _ => P') (fun _ _ => False) := by
  have hsource : o.status = Transition.source .start := hstatus
  have hmoved : (o.moved now .start).id = id := by rw [Order.moved_id, hid]
  refine (advance (h.write _ hmoved) hsource).bind fun o' => ?_
  rintro w ⟨rfl, hw⟩
  rw [hmoved]
  refine h.call.bind (fun failure => ?_) w hw
  cases failure with
  | none =>
    have hcomplete := h.writeAfter ((o.moved now .start).moved now .complete)
      (by rw [Order.moved_id, hmoved])
    exact (advance hcomplete rfl).bind_pure fun _ _ hw => hw.2
  | some reason => exact h.settleFailure hmoved rfl reason

/-- **An attempt does not wait.**  It fails only if there is no such order, and then
    the processor was not called. -/
theorem processIn (h : Admits t id P P') :
    Total P (processIn t id now m) (fun _ w => P w ∨ P' w)
      (fun e w => e = .orderNotFound id ∧ P w) := by
  refine (h.hold.weaken (fun _ _ h => h) fun _ _ h => h.elim).bind fun found => ?_
  cases found with
  | none => exact Total.fail fun _ hw => ⟨rfl, hw.1⟩
  | some o =>
    rintro w ⟨hw, hid⟩
    dsimp only
    cases hstatus : o.status with
    | pending =>
      exact (h.tryProcessing (hid o rfl) hstatus).weaken (fun _ _ => Or.inr) (fun _ _ h => h.elim)
        w hw
    | processed | processing | failed => exact Or.inl ⟨_, w, rfl, Or.inl hw⟩

end World.Admits

end attempts

section bodies
variable {t : TxId} {keys : List LockKey} {left : World} {now : Instant} {m : Nat}

/-- The locks that an attempt on an order takes. -/
def processLocks (id : OrderId) : List LockKey :=
  [.order id, .deadLetter id]

/-- The transaction has come somewhere, and its end would leave nothing that
    was not there at its begin. -/
def World.Undoable (t : TxId) (keys : List LockKey) (left w : World) : Prop :=
  ∃ tx left', left.Unchanged left' ∧ Ready t tx keys left' w

/-- Where its locks can be had an attempt goes through, and nothing that was written
    so far is left if the processor takes the store down. -/
theorem World.admits_ready {id : OrderId} (hkeys : ∀ k ∈ processLocks id, k ∈ keys) :
    Admits t id (fun w => ∃ tx, Ready t tx keys left w)
      (fun w => ∃ tx, Ready t tx keys (left.processorCalled id) w) := by
  have horder : LockKey.order id ∈ keys := hkeys _ (by simp [processLocks])
  have hletter : LockKey.deadLetter id ∈ keys := hkeys _ (by simp [processLocks])
  have hwrite (left : World) (o : Order) (hid : o.id = id) :
      Total (fun w => ∃ tx, Ready t tx keys left w) (Call.inStore (Store.writeOrder t o))
        (fun _ w => ∃ tx, Ready t tx keys left w) (fun _ _ => False) := by
    rintro w ⟨tx, hw⟩
    obtain ⟨w', hcall, hw'⟩ := gives_inStore (Store.gives_writeOrder (hid ▸ horder)) w hw
    exact Or.inl ⟨_, w', hcall, _, hw'⟩
  refine ⟨?_, hwrite left, ?_, hwrite _, fun d hd => ?_⟩
  · rintro w ⟨tx, hw⟩
    obtain ⟨w', hcall, hw'⟩ := gives_inStore (Store.gives_holdOrder horder) w hw
    exact Or.inl ⟨_, w', hcall, ⟨_, hw'⟩, fun o ho => hw.store.orderIn_id ho⟩
  · rintro w ⟨tx, hw⟩
    obtain ⟨w', hcall, hw'⟩ := gives_callProcessor id w hw
    exact Or.inl ⟨_, w', hcall, _, hw'⟩
  · rintro w ⟨tx, hw⟩
    obtain ⟨w', hcall, hw'⟩ := gives_inStore (Store.gives_writeLetter (hd ▸ hletter)) w hw
    exact Or.inl ⟨_, w', hcall, _, hw'⟩

theorem total_processIn (id : OrderId) :
    Total (World.Ready t {} (processLocks id) left) (processIn t id now m)
      (fun _ => World.Undoable t (processLocks id) left)
      (fun _ => World.Undoable t (processLocks id) left) := by
  have hundo (w : World) : (∃ tx, World.Ready t tx (processLocks id) left w) →
      World.Undoable t (processLocks id) left w := by
    rintro ⟨tx, hw⟩
    exact ⟨tx, left, World.Unchanged.refl left, hw⟩
  have hcalled (w : World) : (∃ tx, World.Ready t tx (processLocks id) (left.processorCalled id) w) →
      World.Undoable t (processLocks id) left w := by
    rintro ⟨tx, hw⟩
    exact ⟨tx, _, World.unchanged_processorCalled left id, hw⟩
  have hadmits : World.Admits t id
      (fun w => ∃ tx, World.Ready t tx (processLocks id) left w)
      (fun w => ∃ tx, World.Ready t tx (processLocks id) (left.processorCalled id) w) :=
    World.admits_ready fun _ h => h
  refine fun w hw => hadmits.processIn.weaken ?_ (fun _ w hw => hundo w hw.2) w ⟨_, hw⟩
  exact fun _ w hw => hw.elim (hundo w) (hcalled w)

end bodies

namespace PublishMode

variable {t : TxId} {tx : Transaction} {keys : List LockKey} {left w : World}

/-- The locks that an announcement under the id `row` takes. -/
def announceLocks (mode : PublishMode) (row : Uuid) : List LockKey :=
  match mode with
  | .outbox => [.row ⟨row⟩]
  | .inMemory | .transport => []

/-- The locks that accepting an order takes, with these ids to come. -/
def acceptLocks (mode : PublishMode) (ids : IdSupply) : List LockKey :=
  .order ⟨.versionFour ids.next⟩ :: mode.announceLocks (.versionFour (ids.next + 1))

/-- The locks that readmitting an order takes, with these ids to come. -/
def readmitLocks (mode : PublishMode) (ids : IdSupply) (id : OrderId) : List LockKey :=
  .order id :: .deadLetter id :: mode.announceLocks (.versionFour ids.next)

/-- The transaction that has announced an order, with the id `row` if it needs one. -/
def announced (mode : PublishMode) (tx : Transaction) (row : Uuid) (order : OrderId)
    (correlation : Option String) (now : Instant) : Transaction :=
  match mode with
  | .outbox => (tx.hold (.row ⟨row⟩)).putRow ⟨row⟩ (.announcing ⟨row⟩ order correlation now)
  | .inMemory | .transport => tx

/-- The tables with the announcement of an order in them, if it belongs there. -/
def enrol (mode : PublishMode) (s : Store) (row : Uuid) (order : OrderId)
    (correlation : Option String) (now : Instant) : Store :=
  match mode with
  | .outbox => { s with rows := s.rows.put ⟨row⟩ (.announcing ⟨row⟩ order correlation now) }
  | .inMemory | .transport => s

/-- Putting an announcement over the tables. -/
theorem absorb_announced (mode : PublishMode) (s : Store) (htx : tx.rows = []) (row : Uuid)
    (order : OrderId) (correlation : Option String) (now : Instant) :
    s.absorb (mode.announced tx row order correlation now) =
      mode.enrol (s.absorb tx) row order correlation now := by
  cases mode with
  | outbox =>
    simp only [announced, enrol, Store.absorb, Transaction.putRow, Transaction.hold_orders,
      Transaction.hold_rows, Transaction.hold_deadLetters, htx]
    rfl
  | inMemory | transport => rfl

theorem total_announce (mode : PublishMode) {E : OperationError → World → Prop}
    (hkeys : ∀ k ∈ mode.announceLocks (.versionFour left.ids.next), k ∈ keys)
    (order : OrderId) (correlation : Option String) (now : Instant) :
    Total (World.Ready t tx keys left) (mode.announce t order correlation now)
      (fun signals w' => signals = mode.pending order correlation ∧ ∃ ids,
        World.Ready t (mode.announced tx (.versionFour left.ids.next) order correlation now) keys
          { left with ids := ids } w') E := by
  cases mode with
  | outbox =>
    have hkey := hkeys (.row ⟨.versionFour left.ids.next⟩) (by simp [announceLocks])
    refine World.gives_freshId.bind ?_
    refine (World.gives_inStore (Store.gives_writeRow hkey)).bind (Total.pure fun w' hw' => ?_)
    exact ⟨rfl, _, hw'⟩
  | inMemory | transport => exact Total.pure fun w' hw' => ⟨rfl, left.ids, hw'⟩

/-! ## Accepting -/

/-- The transaction of an order that is being accepted. -/
def accepting (mode : PublishMode) (correlation : Option String) (w : World) : Transaction :=
  let id : OrderId := ⟨.versionFour w.ids.next⟩
  mode.announced ((({} : Transaction).hold (.order id)).putOrder (.fresh id w.now))
    (.versionFour (w.ids.next + 1)) id correlation w.now

/-- The store with the order that is accepted next, and its announcement if
    that belongs there. -/
def accepted (mode : PublishMode) (correlation : Option String) (w : World) : Store :=
  let id : OrderId := ⟨.versionFour w.ids.next⟩
  mode.enrol { w.store with orders := w.store.orders.put id (.fresh id w.now) }
    (.versionFour (w.ids.next + 1)) id correlation w.now

theorem absorb_accepting (mode : PublishMode) (correlation : Option String) (w : World) :
    w.store.absorb (mode.accepting correlation w) = mode.accepted correlation w := by
  unfold accepting accepted
  rw [absorb_announced]
  · rfl
  · rfl

/-- Up to its commit the order has been accepted. -/
structure Accepts (mode : PublishMode) (correlation : Option String) (before : World)
    (answer : OrderId × List Signal) (tx : Transaction) (left : World) : Prop where
  id : answer.1 = ⟨.versionFour before.ids.next⟩
  signals : answer.2 = mode.pending ⟨.versionFour before.ids.next⟩ correlation
  tx : tx = mode.accepting correlation before
  left : ∃ ids, left = { before with ids := ids }

theorem total_stageAccept (mode : PublishMode) {E : OperationError → World → Prop}
    (correlation : Option String) :
    Total (World.Ready t {} (mode.acceptLocks left.ids) left)
      (do mode.stageAccept t correlation (← Call.now))
      (fun answer w' => ∃ tx left', Accepts mode correlation left answer tx left' ∧
        World.Ready t tx (mode.acceptLocks left.ids) left' w') E := by
  have horder : LockKey.order ⟨.versionFour left.ids.next⟩ ∈ mode.acceptLocks left.ids := by
    simp [acceptLocks]
  have hrow : ∀ k ∈ mode.announceLocks (.versionFour (left.ids.next + 1)),
      k ∈ mode.acceptLocks left.ids := by
    intro k hk
    simp [acceptLocks, hk]
  refine World.gives_now.bind ?_
  unfold stageAccept
  refine World.gives_freshId.bind ?_
  refine (World.gives_inStore (Store.gives_writeOrder horder)).bind ?_
  refine Total.bind (total_announce mode ?_ _ correlation left.now) fun signals => ?_
  · exact hrow
  · refine Total.pure fun w' hw' => ?_
    obtain ⟨rfl, ids, hready⟩ := hw'
    exact ⟨_, _, ⟨rfl, rfl, rfl, ids, rfl⟩, hready⟩

/-! ## Readmitting -/

/-- **What a readmission asks for**: a dead letter, and the order that was
    given up on. -/
structure Readmissible (s : Store) (id : OrderId) (o : Order) : Prop where
  letter : (s.deadLetters.find? id).isSome
  order : s.orders.find? id = some o
  status : o.status = .failed

/-- The transaction of the order `o` that is being readmitted. -/
def readmitting (mode : PublishMode) (id : OrderId) (o : Order) (w : World) : Transaction :=
  let o' := o.moved w.now (.reset readmitReason)
  mode.announced (((({} : Transaction).withoutLetter id).hold (.order id)).putOrder o')
    (.versionFour w.ids.next) id none w.now

/-- The store with the order `o` readmitted, and its announcement if that
    belongs there. -/
def readmitted (mode : PublishMode) (id : OrderId) (o : Order) (w : World) : Store :=
  mode.enrol
    { w.store with
      orders := w.store.orders.put id (o.moved w.now (.reset readmitReason))
      deadLetters := w.store.deadLetters.erase id }
    (.versionFour w.ids.next) id none w.now

theorem absorb_readmitting (mode : PublishMode) {id : OrderId} {o : Order} (hid : o.id = id)
    (w : World) : w.store.absorb (mode.readmitting id o w) = mode.readmitted id o w := by
  unfold readmitting readmitted
  rw [absorb_announced]
  · simp only [Store.absorb, Transaction.withoutLetter, Transaction.putOrder,
      Transaction.putLetter, Transaction.hold_orders, Transaction.hold_rows,
      Transaction.hold_deadLetters, Order.moved_id, hid]
    rfl
  · simp [Transaction.withoutLetter, Transaction.putOrder, Transaction.putLetter]

/-- Up to its commit the readmission has succeeded. -/
structure Readmits (mode : PublishMode) (id : OrderId) (before : World) (signals : List Signal)
    (tx : Transaction) (left : World) : Prop where
  signals : signals = mode.pending id none
  found : ∃ o, o.id = id ∧ Readmissible before.store id o ∧ tx = mode.readmitting id o before
  left : ∃ ids, left = { before with ids := ids }

/-- The readmission is refused because of what the tables hold. -/
structure Refuses (id : OrderId) (before : World) (e : OperationError) (left : World) : Prop where
  known : ∀ order cause, e ≠ .unannounced order cause
  not_readmissible : ∀ o, ¬ Readmissible before.store id o
  left : left = before

/-- What is left to do of a readmission that has seen a dead letter. -/
theorem total_readmitFound (mode : PublishMode) {id : OrderId}
    (hletter : (left.store.deadLetters.find? id).isSome = true) :
    Total (World.Ready t {} (mode.readmitLocks left.ids id) left)
      (mode.readmitFound t id left.now)
      (fun signals w' => ∃ tx left', Readmits mode id left signals tx left' ∧
        World.Ready t tx (mode.readmitLocks left.ids id) left' w')
      (fun e w' => ∃ tx left', Refuses id left e left' ∧
        World.Ready t tx (mode.readmitLocks left.ids id) left' w') := by
  have horder : LockKey.order id ∈ mode.readmitLocks left.ids id := by simp [readmitLocks]
  have hdead : LockKey.deadLetter id ∈ mode.readmitLocks left.ids id := by simp [readmitLocks]
  have hrow : ∀ k ∈ mode.announceLocks (.versionFour left.ids.next),
      k ∈ mode.readmitLocks left.ids id := by
    intro k hk
    simp [readmitLocks, hk]
  intro w hw
  have hid {o : Order} (ho : left.store.orderIn {} id = some o) : o.id = id :=
    hw.store.orderIn_id ho
  refine (World.gives_inStore (Store.gives_holdOrder horder)).bind ?_ w hw
  rw [Store.orderIn_empty] at hid ⊢
  cases ho : left.store.orders.find? id with
  | none =>
    have hnone (o : Order) : ¬ Readmissible left.store id o := fun h => by simp [h.order] at ho
    exact Total.fail fun w' hw' => ⟨_, _, ⟨by simp, hnone, rfl⟩, hw'⟩
  | some o =>
    have hoid := hid ho
    refine (World.gives_inStore (Store.gives_dropLetter hdead)).bind ?_
    rw [Store.letterIn_hold, Store.letterIn_empty, if_pos hletter]
    by_cases hstatus : o.status = .failed
    · have hsource : o.status = Transition.source (.reset readmitReason) := hstatus
      have hmoved : .order (o.moved left.now (.reset readmitReason)).id ∈
          mode.readmitLocks left.ids id := by rwa [Order.moved_id, hoid]
      rw [Order.apply_of_status hsource]
      refine (World.gives_inStore (Store.gives_writeOrder hmoved)).bind ?_
      rw [Order.moved_id, hoid]
      refine (total_announce mode hrow id none left.now).weaken ?_ fun _ _ h => h
      intro signals w' hann
      obtain ⟨hsignals, ids, hready⟩ := hann
      exact ⟨_, _, ⟨hsignals, ⟨o, hoid, ⟨hletter, ho, hstatus⟩, rfl⟩, ids, rfl⟩, hready⟩
    · have hnone (o' : Order) : ¬ Readmissible left.store id o' := by
        intro h
        have hsame : o' = o := Option.some.inj (h.order.symm.trans ho)
        exact hstatus (hsame ▸ h.status)
      rw [Order.apply_of_ne_status hstatus]
      exact Total.fail fun w' hw' => ⟨_, _, ⟨by simp, hnone, rfl⟩, hw'⟩

theorem total_stageReadmit (mode : PublishMode) (id : OrderId) :
    Total (World.Ready t {} (mode.readmitLocks left.ids id) left)
      (do mode.stageReadmit t id (← Call.now))
      (fun signals w' => ∃ tx left', Readmits mode id left signals tx left' ∧
        World.Ready t tx (mode.readmitLocks left.ids id) left' w')
      (fun e w' => ∃ tx left', Refuses id left e left' ∧
        World.Ready t tx (mode.readmitLocks left.ids id) left' w') := by
  refine World.gives_now.bind ?_
  refine (World.gives_inStore (Store.gives_readLetter t id)).bind ?_
  rw [Store.letterIn_empty]
  cases hd : left.store.deadLetters.find? id with
  | none =>
    have hnone (o : Order) : ¬ Readmissible left.store id o := by
      intro h
      have hsome := h.letter
      simp [hd] at hsome
    exact Total.fail fun w' hw' => ⟨_, _, ⟨by simp, hnone, rfl⟩, hw'⟩
  | some d => exact total_readmitFound mode (by simp [hd])

end PublishMode

end OrderFlow
