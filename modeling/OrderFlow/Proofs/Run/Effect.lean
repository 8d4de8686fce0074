import OrderFlow.Proofs.Run.Step

/-! # Effects of steps

    Seen from the store, steps come down to very little: a transaction
    begins, stages one of a few things, commits, or ends without a commit.
    Invariants of runs are proved for these effects. -/

namespace OrderFlow

open World

/-- **What a step stages** in an open transaction, given what the transaction
    sees: the orders that the processor was called for, and what the journal
    notes. -/
inductive Stages (s : Store) (ids ids' : IdSupply) (tx : Transaction) :
    List OrderId → Option (OrderId × Change) → Transaction → Prop where
  /-- Locks and outbox rows at most. -/
  | rows {tx' : Transaction} (horders : tx'.orders = tx.orders)
    (hletters : tx'.deadLetters = tx.deadLetters) : Stages s ids ids' tx [] none tx'
  /-- A readmission that is refused. -/
  | refuse {id : OrderId}
    (hgone : s.letterIn tx id = none ∨ ∃ o, s.orderIn tx id = some o ∧ o.status ≠ .failed) :
    Stages s ids ids' tx [] none (tx.withoutLetter id)
  /-- A new order. -/
  | accept {mode : PublishMode} {k : Nat} {ids₁ : IdSupply} {correlation : Option String}
    {now : Instant} {tx' : Transaction} (hle : ids.next ≤ k) (hlt : k < ids₁.next)
    (hids : ids₁.next ≤ ids'.next)
    (hann : Announced mode ids₁ ids' ⟨.versionFour k⟩ correlation now
      ((tx.hold (.order ⟨.versionFour k⟩)).putOrder (.fresh ⟨.versionFour k⟩ now)) tx') :
    Stages s ids ids' tx [] (some (⟨.versionFour k⟩, .accepted)) tx'
  /-- Another chance for an order. -/
  | readmit {mode : PublishMode} {o : Order} {now : Instant} {tx' : Transaction}
    (ho : s.orderIn tx o.id = some o) (hstatus : o.status = .failed)
    (hd : (s.letterIn tx o.id).isSome)
    (hann : Announced mode ids ids' o.id none now
      ((tx.withoutLetter o.id).putOrder (o.moved now (.reset PublishMode.readmitReason))) tx') :
    Stages s ids ids' tx [] (some (o.id, .readmitted)) tx'
  /-- An attempt on an order. -/
  | attempt {o : Order} {now : Instant} {maxRetries : Nat} {outcome : Outcome}
    {tx' : Transaction} (ho : s.orderIn tx o.id = some o) (hstatus : o.status = .pending)
    (h : Attempted o now maxRetries (tx.hold (.order o.id)) outcome tx') :
    Stages s ids ids' tx [o.id] (some (o.id, outcome.change maxRetries)) tx'

/-- What a transaction has changed, if anything. -/
def Journal.noteAny (j : Journal) (t : TxId) : Option (OrderId × Change) → Journal
  | none => j
  | some (id, c) => j.note t id c

/-- **One effect.** -/
inductive Effect : World × Journal → World × Journal → Prop where
  /-- Something happens elsewhere. -/
  | elsewhere {w w' : World} {j : Journal} (h : Elsewhere w w') : Effect (w, j) (w', j)
  /-- A transaction begins. -/
  | start {w : World} {j : Journal} : Effect (w, j) ({ w with store := w.store.begun }, j)
  /-- A transaction stages something. -/
  | stage {w w' : World} {j : Journal} {t : TxId} {called : List OrderId}
    {c : Option (OrderId × Change)} {tx tx' : Transaction} (h : Works t called w tx w' tx')
    (horderly : tx'.Orderly) (hs : Stages w.store w.ids w'.ids tx called c tx') :
    Effect (w, j) (w', j.noteAny t c)
  /-- A transaction commits. -/
  | commit {w : World} {j : Journal} {t : TxId} {tx : Transaction}
    (h : w.store.opened.find? t = some tx) :
    Effect (w, j) ({ w with store := (w.store.absorb tx).close t }, j.commit t)
  /-- A transaction ends without a commit. -/
  | close {w : World} {j : Journal} {t : TxId} {tx : Transaction}
    (h : w.store.opened.find? t = some tx) :
    Effect (w, j) ({ w with store := w.store.close t }, j.forget t)

/-- Any number of effects. -/
abbrev Effects : World × Journal → World × Journal → Prop :=
  Relation.ReflTransGen Effect

section orderly
variable {w w' : World} {j j' : Journal}

theorem Effect.orderly (h : Effect (w, j) (w', j')) (hw : w.store.Orderly) : w'.store.Orderly := by
  cases h with
  | elsewhere h => exact h.orderly hw
  | start => exact hw.start
  | stage h horderly hs => exact hw.progress h.store horderly
  | commit h => exact (hw.absorb (hw.each h)).close _
  | close h => exact hw.close _

theorem Effect.ids_le (h : Effect (w, j) (w', j')) : w.ids.next ≤ w'.ids.next := by
  cases h with
  | elsewhere h => exact h.ids
  | stage h horderly hs => exact h.ids
  | start => exact Nat.le_refl _
  | commit h => exact Nat.le_refl _
  | close h => exact Nat.le_refl _

/-- No order is ever deleted. -/
theorem Effect.keeps_orders (h : Effect (w, j) (w', j')) (hw : w.store.Orderly) {id : OrderId}
    (hid : (w.store.orders.find? id).isSome) : (w'.store.orders.find? id).isSome := by
  cases h with
  | elsewhere h =>
    obtain ⟨b, hstore⟩ := h.store
    rw [hstore]
    exact hid
  | stage h _ _ =>
    rw [← h.store.sameTables.orders]
    exact hid
  | start | close _ => exact hid
  | commit h =>
    show ((w.store.absorb _).orders.find? id).isSome
    rw [Store.orders_absorb (hw.each h), Store.orderIn, Option.isSome_or, hid, Bool.or_true]

theorem Effects.orderly {c c' : World × Journal} (h : Effects c c') (hw : c.1.store.Orderly) :
    c'.1.store.Orderly := by
  induction h with
  | refl => exact hw
  | tail _ hstep ih => exact hstep.orderly ih

theorem Effects.ids_le {c c' : World × Journal} (h : Effects c c') :
    c.1.ids.next ≤ c'.1.ids.next := by
  induction h with
  | refl => exact Nat.le_refl _
  | tail _ hstep ih => exact Nat.le_trans ih hstep.ids_le

theorem Effects.keeps_orders {c c' : World × Journal} (h : Effects c c') (hw : c.1.store.Orderly)
    {id : OrderId} (hid : (c.1.store.orders.find? id).isSome) :
    (c'.1.store.orders.find? id).isSome := by
  induction h with
  | refl => exact hid
  | tail hsteps hstep ih => exact hstep.keeps_orders (Effects.orderly hsteps hw) ih

/-- **Induction over a run.**  A property that every effect keeps, as long as
    ids are fresh and the store is in order, is kept by all of them. -/
theorem Effects.keep {P : World → Journal → Prop} {c c' : World × Journal} (h : Effects c c')
    (hstep : ∀ {w w' j j'}, w.store.Orderly → w'.ids.Lasts → Effect (w, j) (w', j') → P w j →
      P w' j')
    (hw : c.1.store.Orderly) (hids : c'.1.ids.Lasts) (hP : P c.1 c.2) : P c'.1 c'.2 := by
  induction h with
  | refl => exact hP
  -- Ids only go up, so those that last at the end have lasted all along.
  | tail hsteps heffect ih =>
    exact hstep (Effects.orderly hsteps hw) hids heffect (ih (hids.mono heffect.ids_le))

end orderly

/-! ## From steps to effects -/

section stages
variable {ids ids' : IdSupply} {t : TxId} {w w' : World} {j j' : Journal} {tx tx' : Transaction}
  {o : Order} {now : Instant}

theorem Transaction.Orderly.withoutLetter (h : tx.Orderly) (id : OrderId) :
    (tx.withoutLetter id).Orderly :=
  ((h.hold _).hold _).putLetter (by rintro d' hd; cases hd) Transaction.mem_held_self

theorem Announced.orderly {mode : PublishMode} {order : OrderId} {correlation : Option String}
    (h : Announced mode ids ids' order correlation now tx tx') (htx : tx.Orderly) :
    tx'.Orderly := by
  cases h with
  | row k => exact (htx.hold _).putRow rfl Transaction.mem_held_self
  | later => exact htx

theorem Attempted.orderly {m : Nat} {outcome : Outcome}
    (h : Attempted o now m tx outcome tx') (htx : tx.Orderly)
    (hheld : LockKey.order o.id ∈ tx.held) : tx'.Orderly := by
  have hput (step : Transition) : (tx.putOrder (o.tried now step)).Orderly :=
    htx.putOrder (by simpa using hheld)
  cases h with
  | processed => exact hput _
  | retry reason _ => exact hput _
  | failed reason _ =>
    exact ((hput _).hold _).putLetter (by rintro d hd; cases hd; rfl) Transaction.mem_held_self

/-- Work on outbox rows touches neither orders nor dead letters. -/
theorem OnRows.works {α : Type} {m : StoreCall α} {r : Except OperationError α}
    (hm : OnRows t m) (h : Call.inStore m w = some (r, w')) (hw : w.store.Orderly) :
    ∃ tx tx', Works t [] w tx w' tx' ∧ tx'.Orderly ∧ tx'.orders = tx.orders ∧
      tx'.deadLetters = tx.deadLetters := by
  obtain ⟨r₀, s', hs, -, rfl⟩ := Call.inStore_eq_some h
  cases hm with
  | endStaleLeases limit =>
    obtain ⟨tx, rows, -, -, hp⟩ := Store.endStaleLeases_eq_some hs
    exact ⟨tx, _, Call.works_inStore hp, (hw.endStaleLeases hs).each hp.after,
      Store.foldl_hold_orders _ _, Store.foldl_hold_deadLetters _ _⟩
  | claimDue limit now =>
    obtain ⟨tx, rows, -, -, hp⟩ := Store.claimDue_eq_some hs
    exact ⟨tx, _, Call.works_inStore hp, (hw.claimDue hs).each hp.after,
      Store.foldl_hold_orders _ _, Store.foldl_hold_deadLetters _ _⟩
  | changeRow id f hf =>
    obtain ⟨tx, ⟨-, -, hp⟩ | ⟨e, -, -, hp⟩⟩ := Store.changeRow_eq_some hs
    · exact ⟨tx, _, Call.works_inStore hp, (hw.changeRow hf hs).each hp.after,
        tx.hold_orders _, tx.hold_deadLetters _⟩
    · exact ⟨tx, _, Call.works_inStore hp, (hw.changeRow hf hs).each hp.after,
        tx.hold_orders _, tx.hold_deadLetters _⟩

/-- A lock alone. -/
theorem Effect.hold {key : LockKey} (hw : w.store.Orderly)
    (h : Works t [] w tx w' (tx.hold key)) : Effect (w, j) (w', j) :=
  .stage h ((hw.each h.store.before).hold key)
    (.rows (tx.hold_orders key) (tx.hold_deadLetters key))

/-- **Every step comes down to effects.** -/
theorem Step.effects (h : Step (w, j) (w', j')) (hw : w.store.Orderly) :
    Effects (w, j) (w', j') := by
  cases h with
  | elsewhere h => exact .single (.elsewhere h)
  | start h =>
    obtain ⟨w₁, helse, ⟨-, -, rfl⟩ | ⟨-, -, rfl⟩⟩ := Call.start_eq_some h
    · exact .tail (.single (.elsewhere helse)) .start
    · exact .single (.elsewhere helse)
  | accept h =>
    obtain ⟨tx, tx', ids', rfl, hlt, hids, hann, hworks⟩ := PublishMode.stageAccept_works h
    have htx := hw.each hworks.store.before
    have htx' := hann.orderly
      ((htx.hold _).putOrder Transaction.mem_held_self)
    exact .single (.stage hworks htx' (.accept (Nat.le_refl _) hlt hids hann))
  | readmit h =>
    obtain ⟨tx, ⟨-, rfl, hworks⟩ | ⟨o, ho, hcases⟩⟩ := PublishMode.readmitFound_works hw h
    · exact .single (.hold hw hworks)
    obtain ⟨hgone, ⟨e, rfl, -⟩, hworks⟩ | ⟨hd, rfl, hstatus, tx', rfl, hann, hworks⟩ := hcases
    · -- Refused, but the letter's removal is staged and may be committed.
      have htx := hw.each hworks.store.before
      exact .single (.stage hworks (htx.withoutLetter _)
        (.refuse (hgone.imp_right fun hne => ⟨o, ho, hne⟩)))
    · have htx := hw.each hworks.store.before
      have hheld : LockKey.order o.id ∈ (tx.withoutLetter o.id).held := order_mem_held_withoutLetter
      have htx' := hann.orderly ((htx.withoutLetter o.id).putOrder (by simpa using hheld))
      exact .single <| .stage hworks htx' <| Stages.readmit ho hstatus hd hann
  | attempt h =>
    obtain ⟨tx, hcases⟩ := processIn_works hw h
    obtain ⟨-, rfl, hworks⟩ | ⟨o, -, -, rfl, hworks⟩ |
      ⟨o, outcome, tx', ho, rfl, hstatus, rfl, hattempted, hworks⟩ := hcases
    · exact .single (.hold hw hworks)
    · -- Passed over: the processor was not called, so the journal notes nothing.
      have hcalled : w.calledUntil w' = false := by simp [World.calledUntil, hworks.calls]
      rw [hcalled]
      exact .single (.hold hw hworks)
    · have hcalled : w.calledUntil w' = true := by simp [World.calledUntil, hworks.calls]
      rw [hcalled]
      have htx := hw.each hworks.store.before
      have htx' := hattempted.orderly (htx.hold _) Transaction.mem_held_self
      exact .single (.stage hworks htx' (.attempt ho hstatus hattempted))
  | rows hm h =>
    obtain ⟨tx, tx', hworks, htx', horders, hletters⟩ := hm.works h hw
    exact .single (.stage hworks htx' (.rows horders hletters))
  | commit h =>
    obtain ⟨w₁, tx, helse, htx, ⟨rfl, -, rfl⟩ | ⟨rfl, -, rfl⟩⟩ := Call.commit_eq_some h
    · exact .tail (.single (.elsewhere helse)) (.commit htx)
    · -- A commit that is refused ends its transaction as well.
      exact .tail (.single (.elsewhere helse)) (.close htx)
  | abandon h =>
    obtain ⟨tx, htx, -, rfl⟩ := Call.abandon_eq_some h
    exact .single (.close htx)

theorem Steps.effects {c c' : World × Journal} (h : Steps c c') (hw : c.1.store.Orderly) :
    Effects c c' := by
  induction h with
  | refl => exact .refl
  | tail _ hstep ih => exact ih.trans (hstep.effects (Effects.orderly ih hw))

theorem Continues.orderly {limits : Nat → Prop} (h : Continues limits w w')
    (hw : w.store.Orderly) : w'.store.Orderly := by
  obtain ⟨j', hsteps, -⟩ := h {} Journal.within_empty
  exact Effects.orderly (hsteps.effects hw) hw

theorem Continues.ids_le {limits : Nat → Prop} (h : Continues limits w w')
    (hw : w.store.Orderly) : w.ids.next ≤ w'.ids.next := by
  obtain ⟨j', hsteps, -⟩ := h {} Journal.within_empty
  exact Effects.ids_le (hsteps.effects hw)

end stages

end OrderFlow
