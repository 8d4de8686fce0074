import OrderFlow.Proofs.Ids
import OrderFlow.Proofs.Store.View
import OrderFlow.Signal
import OrderFlow.Worker.Stop

/-! # What calls do to the world

    Most calls happen elsewhere: as far as orders are concerned they only
    draw ids, and the store may become available or unavailable meanwhile
    (`Elsewhere`).  The others begin or end a transaction or work inside
    one (`Works`). -/

namespace OrderFlow

namespace World

/-- **Elsewhere**: the tables, the transactions and the locks are as they
    were, and the processor has not been called. -/
structure Elsewhere (w w' : World) : Prop where
  store : ∃ b, w'.store = { w.store with available := b }
  calls : w'.processor.calls = w.processor.calls
  ids : w.ids.next ≤ w'.ids.next

/-- **Aside**: elsewhere, and no message has been sent, delivered or
    acknowledged. -/
structure Aside (w w' : World) : Prop extends Elsewhere w w' where
  transport : ∃ b, w'.transport = { w.transport with available := b }

/-- **Work inside transaction `t`**, during which the processor was called for
    the orders `called`. -/
structure Works (t : TxId) (called : List OrderId) (w : World) (tx : Transaction) (w' : World)
    (tx' : Transaction) : Prop where
  store : Store.Progress t w.store tx w'.store tx'
  calls : w'.processor.calls = w.processor.calls ++ called
  ids : w.ids.next ≤ w'.ids.next

variable {t : TxId} {w w' w'' : World} {tx tx' tx'' : Transaction} {ids ids' : List OrderId}

theorem elsewhere_of_store_eq (hstore : w'.store = w.store)
    (hcalls : w'.processor = w.processor) (hids : w'.ids = w.ids) : Elsewhere w w' where
  store := ⟨w.store.available, hstore⟩
  calls := congrArg (·.calls) hcalls
  ids := Nat.le_of_eq (congrArg (·.next) hids.symm)

theorem elsewhere_chains : Attempt.Chains Elsewhere where
  refl _ := elsewhere_of_store_eq rfl rfl rfl
  trans := by
    intro w₁ w₂ w₃ h₁ h₂
    obtain ⟨b, hb⟩ := h₁.store
    obtain ⟨c, hc⟩ := h₂.store
    refine ⟨⟨c, ?_⟩, h₂.calls.trans h₁.calls, Nat.le_trans h₁.ids h₂.ids⟩
    rw [hc, hb]

theorem aside_of_store_eq (hstore : w'.store = w.store) (hcalls : w'.processor = w.processor)
    (hids : w'.ids = w.ids) (htransport : w'.transport = w.transport) : Aside w w' where
  toElsewhere := elsewhere_of_store_eq hstore hcalls hids
  transport := ⟨w.transport.available, htransport⟩

theorem aside_chains : Attempt.Chains Aside where
  refl _ := aside_of_store_eq rfl rfl rfl rfl
  trans := by
    intro w₁ w₂ w₃ h₁ h₂
    obtain ⟨b, hb⟩ := h₁.transport
    obtain ⟨c, hc⟩ := h₂.transport
    refine ⟨elsewhere_chains.trans h₁.toElsewhere h₂.toElsewhere, ⟨c, ?_⟩⟩
    rw [hc, hb]

theorem Elsewhere.sameTables (h : Elsewhere w w') : Store.SameTables w.store w'.store := by
  obtain ⟨b, hb⟩ := h.store
  rw [hb]
  exact ⟨rfl, rfl, rfl⟩

theorem Elsewhere.opened (h : Elsewhere w w') : w'.store.opened = w.store.opened := by
  obtain ⟨b, hb⟩ := h.store
  rw [hb]

theorem Elsewhere.current (h : Elsewhere w w') (hc : w'.store.Current tx) :
    w.store.Current tx := by
  unfold Store.Current at hc ⊢
  rwa [h.opened] at hc

theorem Elsewhere.orderly (h : Elsewhere w w') (hw : w.store.Orderly) : w'.store.Orderly := by
  obtain ⟨b, hb⟩ := h.store
  rw [hb]
  exact hw.setAvailable b

theorem Elsewhere.works (h : Elsewhere w w') (htx : w.store.opened.find? t = some tx) :
    Works t [] w tx w' tx := by
  obtain ⟨b, hb⟩ := h.store
  refine ⟨?_, ?_, h.ids⟩
  · rw [hb]
    exact Store.progress_setAvailable htx b
  · rw [h.calls, List.append_nil]

theorem Works.trans (h₁ : Works t ids w tx w' tx') (h₂ : Works t ids' w' tx' w'' tx'') :
    Works t (ids ++ ids') w tx w'' tx'' where
  store := h₁.store.trans h₂.store
  calls := by rw [h₂.calls, h₁.calls, List.append_assoc]
  ids := Nat.le_trans h₁.ids h₂.ids

/-! ## Others -/

theorem aside_nextDisturbance (w : World) : Aside w w.nextDisturbance := by
  unfold nextDisturbance
  split
  · exact aside_chains.refl w
  · next d rest _ => exact ⟨⟨⟨_, rfl⟩, rfl, Nat.le_refl _⟩, ⟨_, rfl⟩⟩

theorem aside_countSend (w : World) : Aside w w.countSend := by
  unfold countSend
  split
  · exact ⟨⟨⟨_, rfl⟩, rfl, Nat.le_refl _⟩, ⟨_, rfl⟩⟩
  · exact aside_of_store_eq rfl rfl rfl rfl

theorem nextDisturbance_ids (w : World) : w.nextDisturbance.ids = w.ids := by
  unfold nextDisturbance
  split <;> rfl

theorem countSend_ids (w : World) : w.countSend.ids = w.ids := by
  unfold countSend
  split <;> rfl

theorem elsewhere_nextDisturbance (w : World) : Elsewhere w w.nextDisturbance :=
  (aside_nextDisturbance w).toElsewhere

/-! ## What everybody sees -/

/-- **Every view**: the property holds of what each transaction sees that is
    open or may begin. -/
def Views (P : Store → IdSupply → Transaction → Prop) (w : World) : Prop :=
  ∀ tx, w.store.Current tx → P w.store w.ids tx

/-- A property of a view that depends only on the committed tables and the
    transaction, and that later ids do not break. -/
def OfTables (P : Store → IdSupply → Transaction → Prop) : Prop :=
  ∀ {s s' ids ids' tx}, P s ids tx → s.SameTables s' → ids.next ≤ ids'.next → P s' ids' tx

section views
variable {P : Store → IdSupply → Transaction → Prop} {called : List OrderId}

/-- The same views as before. -/
theorem Views.mono (hw : Views P w) (hP : OfTables P) (hs : w.store.SameTables w'.store)
    (hids : w.ids.next ≤ w'.ids.next)
    (hcurrent : ∀ {tx}, w'.store.Current tx → w.store.Current tx) : Views P w' :=
  fun tx hc => hP (hw tx (hcurrent hc)) hs hids

theorem Views.elsewhere (hw : Views P w) (hP : OfTables P) (h : Elsewhere w w') : Views P w' :=
  hw.mono hP h.sameTables h.ids h.current

theorem Views.start (hw : Views P w) (hP : OfTables P) :
    Views P { w with store := w.store.begun } :=
  hw.mono hP ⟨rfl, rfl, rfl⟩ (Nat.le_refl _) Store.current_start

theorem Views.close (hw : Views P w) (hP : OfTables P) :
    Views P { w with store := w.store.close t } :=
  hw.mono hP (Store.sameTables_close _ _) (Nat.le_refl _) Store.current_close

/-- The views of the others are not touched. -/
theorem Views.works (hw : Views P w) (hP : OfTables P) (h : Works t called w tx w' tx')
    (htx' : P w.store w'.ids tx') : Views P w' := by
  have hsame := h.store.sameTables
  rintro tx₁ (rfl | ⟨u, hu⟩)
  · -- One that may begin sees the committed tables, and those are the same.
    exact hP (hw _ (Store.current_empty _)) hsame h.ids
  · by_cases hut : u = t
    · subst hut
      rw [h.store.after, Option.some.injEq] at hu
      exact hu ▸ hP htx' hsame (Nat.le_refl _)
    · rw [h.store.others hut] at hu
      exact hP (hw _ (Store.current_opened hu)) hsame h.ids

/-- A commit changes what the others see, and what one sees that begins. -/
theorem Views.commit (hP : OfTables P) (hfresh : P (w.store.absorb tx) w.ids {})
    (hothers : ∀ {u other}, w.store.opened.find? u = some other → u ≠ t →
      P (w.store.absorb tx) w.ids other) :
    Views P { w with store := (w.store.absorb tx).close t } := by
  have hclose := Store.sameTables_close (w.store.absorb tx) t
  rintro tx₁ (rfl | ⟨u, hu⟩)
  · exact hP hfresh hclose (Nat.le_refl _)
  · obtain ⟨hut, hu⟩ := Store.opened_of_close hu
    exact hP (hothers hu hut) hclose (Nat.le_refl _)

end views

end World

namespace Call

open World

variable {t : TxId} {w w' : World} {tx : Transaction} {α : Type}

/-! ## Calls on the store -/

theorem inStore_eq_some {m : StoreCall α} {r : Except OperationError α}
    (h : inStore m w = some (r, w')) :
    ∃ r₀ s', m w.store = some (r₀, s') ∧ r = r₀.mapError .store ∧ w' = { w with store := s' } := by
  obtain ⟨r₀, hpart, hr⟩ := Attempt.mapError_eq_some_iff.mp h
  obtain ⟨s', hm, hw⟩ := Attempt.onPart_eq_some_iff.mp hpart
  exact ⟨r₀, s', hm, hr, hw⟩

/-- A call on the store that never fails, and what comes after it. -/
theorem inStore_bind_eq_some {β : Type} {m : StoreCall α} {f : α → Call β}
    {r : Except OperationError β} (hm : m.Answers) (h : (inStore m >>= f) w = some (r, w')) :
    ∃ a s', m w.store = some (.ok a, s') ∧ f a { w with store := s' } = some (r, w') := by
  have hanswers : (inStore m).Answers := by
    intro w₀ r₀ w₁ hw
    obtain ⟨rs, s', hs, rfl, -⟩ := inStore_eq_some hw
    obtain ⟨a, rfl⟩ := hm _ _ _ hs
    exact ⟨a, rfl⟩
  obtain ⟨a, w₁, hcall, hrest⟩ := hanswers.bind_eq_some h
  obtain ⟨rs, s', hs, hr, rfl⟩ := inStore_eq_some hcall
  obtain ⟨a', rfl⟩ := hm _ _ _ hs
  cases hr
  exact ⟨a, s', hs, hrest⟩

theorem works_inStore {s' : Store} {tx' : Transaction} (hp : Store.Progress t w.store tx s' tx') :
    Works t [] w tx { w with store := s' } tx' :=
  ⟨hp, (List.append_nil _).symm, Nat.le_refl _⟩

theorem start_eq_some {r : Except OperationError TxId} (h : start w = some (r, w')) :
    ∃ w₁, Elsewhere w w₁ ∧
      ((r = .ok w₁.store.nextTx ∧ w₁.store.available = true ∧
          w' = { w₁ with store := w₁.store.begun }) ∨
        (r = .error (.store Store.offline) ∧ w₁.store.available = false ∧ w' = w₁)) := by
  obtain ⟨_, w₁, hmodify, hstart⟩ := (Attempt.answers_modify _).bind_eq_some h
  cases hmodify
  obtain ⟨r₀, s', hs, rfl, rfl⟩ := inStore_eq_some hstart
  refine ⟨_, elsewhere_nextDisturbance w, ?_⟩
  obtain ⟨rfl, ha, rfl⟩ | ⟨rfl, ha, rfl⟩ := Store.start_eq_some hs
  · exact Or.inl ⟨rfl, ha, rfl⟩
  · exact Or.inr ⟨rfl, ha, rfl⟩

theorem commit_eq_some {r : Except OperationError Unit} (h : commit t w = some (r, w')) :
    ∃ w₁ tx, Elsewhere w w₁ ∧ w₁.store.opened.find? t = some tx ∧
      ((r = .ok () ∧ w₁.store.available = true ∧
          w' = { w₁ with store := (w₁.store.absorb tx).close t }) ∨
        (r = .error (.store Store.offline) ∧ w₁.store.available = false ∧
          w' = { w₁ with store := w₁.store.close t })) := by
  obtain ⟨_, w₁, hmodify, hcommit⟩ := (Attempt.answers_modify _).bind_eq_some h
  cases hmodify
  obtain ⟨r₀, s', hs, rfl, rfl⟩ := inStore_eq_some hcommit
  obtain ⟨tx, htx, hend⟩ := Store.commit_eq_some hs
  refine ⟨_, tx, elsewhere_nextDisturbance w, htx, ?_⟩
  obtain ⟨rfl, ha, rfl⟩ | ⟨rfl, ha, rfl⟩ := hend
  · exact Or.inl ⟨rfl, ha, rfl⟩
  · exact Or.inr ⟨rfl, ha, rfl⟩

theorem abandon_eq_some {r : Except OperationError Unit}
    (h : inStore (Store.abandon t) w = some (r, w')) :
    ∃ tx, w.store.opened.find? t = some tx ∧ r = .ok () ∧
      w' = { w with store := w.store.close t } := by
  obtain ⟨r₀, s', hs, rfl, rfl⟩ := inStore_eq_some h
  obtain ⟨tx, htx, rfl, rfl⟩ := Store.abandon_eq_some hs
  exact ⟨tx, htx, rfl, rfl⟩

/-- Nobody is about to disturb. -/
theorem nextDisturbance_eq (h : w.disturbances = []) : w.nextDisturbance = w := by
  unfold World.nextDisturbance
  rw [h]

/-! ## From the outcomes of the parts -/

theorem inStore_of_eq_some {m : StoreCall α} {r : Except StoreError α} {s : Store}
    (h : m w.store = some (r, s)) :
    inStore m w = some (r.mapError .store, { w with store := s }) :=
  Attempt.mapError_eq_some_iff.mpr ⟨_, Attempt.onPart_eq_some_iff.mpr ⟨_, h, rfl⟩, rfl⟩

/-- A begin and a commit are calls on the store after the next disturbance. -/
theorem start_eq (w : World) : start w = inStore Store.start w.nextDisturbance :=
  rfl

theorem commit_eq (t : TxId) (w : World) :
    commit t w = inStore (Store.commit t) w.nextDisturbance :=
  rfl

/-- A store that is available and stays so lets a transaction begin. -/
theorem start_of_available (hd : w.disturbances = []) (ha : w.store.available = true) :
    start w = some (.ok w.store.nextTx, { w with store := w.store.begun }) := by
  have hs : Store.start w.store = some (.ok w.store.nextTx, w.store.begun) := by
    unfold Store.start
    rw [if_pos ha]
    rfl
  rw [start_eq, nextDisturbance_eq hd]
  exact inStore_of_eq_some hs

theorem commit_of_available (hd : w.disturbances = []) (ha : w.store.available = true)
    (htx : w.store.opened.find? t = some tx) :
    commit t w = some (.ok (), { w with store := (w.store.absorb tx).close t }) := by
  have hs : Store.commit t w.store = some (.ok (), (w.store.absorb tx).close t) := by
    unfold Store.commit
    rw [htx]
    exact if_pos ha
  rw [commit_eq, nextDisturbance_eq hd]
  exact inStore_of_eq_some hs

section transact
variable {body : TxId → Call α} {a : α} {e : OperationError} {w₁ w₂ : World}

/-- A transaction of its own whose body answers and that may commit. -/
theorem transact_of_ok (hstart : start w = some (.ok t, w₁))
    (hbody : body t w₁ = some (.ok a, w₂)) (hcommit : commit t w₂ = some (.ok (), w')) :
    transact body w = some (.ok a, w') := by
  refine Attempt.bind_eq_ok_iff.mpr ⟨t, w₁, hstart, ?_⟩
  refine Attempt.bind_eq_ok_iff.mpr ⟨.ok a, w₂, ?_, ?_⟩
  · exact Attempt.outcome_eq_some_iff.mpr ⟨_, hbody, rfl⟩
  · exact Attempt.bind_eq_ok_iff.mpr ⟨(), w', hcommit, rfl⟩

/-- One that does not begin. -/
theorem transact_of_start_error (hstart : start w = some (.error e, w')) :
    transact body w = some (.error e, w') :=
  Attempt.bind_eq_some_iff.mpr (Or.inr ⟨e, hstart, rfl⟩)

/-- One whose commit is refused. -/
theorem transact_of_commit_error (hstart : start w = some (.ok t, w₁))
    (hbody : body t w₁ = some (.ok a, w₂)) (hcommit : commit t w₂ = some (.error e, w')) :
    transact body w = some (.error e, w') := by
  refine Attempt.bind_eq_some_iff.mpr (Or.inl ⟨t, w₁, hstart, ?_⟩)
  refine Attempt.bind_eq_some_iff.mpr (Or.inl ⟨.ok a, w₂, ?_, ?_⟩)
  · exact Attempt.outcome_eq_some_iff.mpr ⟨_, hbody, rfl⟩
  · exact Attempt.bind_eq_some_iff.mpr (Or.inr ⟨e, hcommit, rfl⟩)

/-- One whose body fails. -/
theorem transact_of_body_error (hstart : start w = some (.ok t, w₁))
    (hbody : body t w₁ = some (.error e, w₂))
    (habandon : inStore (Store.abandon t) w₂ = some (.ok (), w')) :
    transact body w = some (.error e, w') := by
  refine Attempt.bind_eq_some_iff.mpr (Or.inl ⟨t, w₁, hstart, ?_⟩)
  refine Attempt.bind_eq_some_iff.mpr (Or.inl ⟨.error e, w₂, ?_, ?_⟩)
  · exact Attempt.outcome_eq_some_iff.mpr ⟨_, hbody, rfl⟩
  · exact Attempt.bind_eq_some_iff.mpr (Or.inl ⟨(), w', habandon, rfl⟩)

end transact

/-! ## Transactions, read backwards -/

/-- A transaction that has begun. -/
theorem start_ok (h : start w = some (.ok t, w')) : w'.store.opened.find? t = some {} ∧
    w.store.SameTables w'.store ∧ w'.processor.calls = w.processor.calls ∧
    (w.store.Orderly → w'.store.Orderly) := by
  obtain ⟨w₁, helse, ⟨ht, -, rfl⟩ | ⟨ht, -, -⟩⟩ := start_eq_some h
  · cases ht
    exact ⟨by simp [Store.opened_begun], ⟨helse.sameTables.orders, helse.sameTables.rows,
      helse.sameTables.deadLetters⟩, helse.calls, fun hw => (helse.orderly hw).start⟩
  · cases ht

/-- It is a new one, and the others are as they were. -/
theorem start_opened (hw : w.store.Orderly) (h : start w = some (.ok t, w')) :
    (∀ u, w'.store.opened.find? u = if t = u then some {} else w.store.opened.find? u) ∧
      w.store.opened.find? t = none := by
  obtain ⟨w₁, helse, ⟨ht, -, rfl⟩ | ⟨ht, -, -⟩⟩ := start_eq_some h
  · cases ht
    refine ⟨fun u => ?_, ?_⟩
    · rw [← helse.opened]
      exact Store.opened_begun _ u
    · rw [← helse.opened]
      exact (helse.orderly hw).nextTx_free
  · cases ht

/-- Only the store's absence keeps a transaction from beginning. -/
theorem start_error {e : OperationError} (h : start w = some (.error e, w')) :
    e = .store Store.offline ∧ Elsewhere w w' := by
  obtain ⟨w₁, helse, ⟨ht, -, -⟩ | ⟨ht, -, rfl⟩⟩ := start_eq_some h
  · cases ht
  · cases ht
    exact ⟨rfl, helse⟩

/-- After a commit the tables are as the transaction saw them, or as they
    were before, if the store refuses. -/
theorem commit_ends {r : Except OperationError Unit} (htx : w.store.opened.find? t = some tx)
    (h : commit t w = some (r, w')) : w'.processor.calls = w.processor.calls ∧
    ((r = .ok () ∧ Store.SameTables (w.store.absorb tx) w'.store) ∨
      (r = .error (.store Store.offline) ∧ w.store.SameTables w'.store)) := by
  obtain ⟨w₁, tx₁, helse, htx₁, hend⟩ := commit_eq_some h
  rw [helse.opened, htx, Option.some.injEq] at htx₁
  subst htx₁
  obtain ⟨rfl, -, rfl⟩ | ⟨rfl, -, rfl⟩ := hend
  · refine ⟨helse.calls, Or.inl ⟨rfl, ?_⟩⟩
    obtain ⟨b, hb⟩ := helse.store
    -- Others have changed at most what is available.
    have habsorb : Store.SameTables (w.store.absorb tx) (w₁.store.absorb tx) := by
      rw [hb]
      exact ⟨rfl, rfl, rfl⟩
    exact habsorb.trans (Store.sameTables_close _ t)
  · exact ⟨helse.calls, Or.inr ⟨rfl, helse.sameTables.trans (Store.sameTables_close _ t)⟩⟩

/-- However a commit ends, the transaction is closed and no other is. -/
theorem commit_opened {r : Except OperationError Unit} (h : commit t w = some (r, w')) (u : TxId) :
    w'.store.opened.find? u = if t = u then none else w.store.opened.find? u := by
  obtain ⟨w₁, tx, helse, -, ⟨-, -, rfl⟩ | ⟨-, -, rfl⟩⟩ := commit_eq_some h
  all_goals
    rw [← helse.opened]
    exact Store.opened_close _ t u

/-- **A transaction of its own** does not begin, or its body answers and it
    tries to commit, or its body fails and it is abandoned. -/
theorem transact_eq_some {body : TxId → Call α} {r : Except OperationError α}
    (h : transact body w = some (r, w')) :
    (∃ e, start w = some (.error e, w') ∧ r = .error e) ∨
    ∃ t w₁, start w = some (.ok t, w₁) ∧
      ((∃ a w₂ r', body t w₁ = some (.ok a, w₂) ∧ commit t w₂ = some (r', w') ∧
          r = r'.map fun _ => a) ∨
        (∃ e w₂, body t w₁ = some (.error e, w₂) ∧
          inStore (Store.abandon t) w₂ = some (.ok (), w') ∧ r = .error e)) := by
  obtain ⟨t, w₁, hstart, hrest⟩ | ⟨e, hstart, rfl⟩ := Attempt.bind_eq_some_iff.mp h
  · refine Or.inr ⟨t, w₁, hstart, ?_⟩
    -- The body's answer decides how the transaction ends, a failure included.
    obtain ⟨rb, w₂, hbody, hend⟩ := Attempt.outcome_bind_eq_some hrest
    cases rb with
    | ok a =>
      refine Or.inl ⟨a, w₂, ?_⟩
      obtain ⟨_, w₃, hcommit, hpure⟩ | ⟨e, hcommit, rfl⟩ := Attempt.bind_eq_some_iff.mp hend
      · cases hpure
        exact ⟨_, hbody, hcommit, rfl⟩
      · exact ⟨_, hbody, hcommit, rfl⟩
    | error e =>
      refine Or.inr ⟨e, w₂, hbody, ?_⟩
      obtain ⟨_, w₃, habandon, hfail⟩ | ⟨e', habandon, -⟩ := Attempt.bind_eq_some_iff.mp hend
      · cases hfail
        exact ⟨habandon, rfl⟩
      · -- Abandoning an open transaction never fails.
        obtain ⟨tx, -, hr, -⟩ := abandon_eq_some habandon
        cases hr
  · exact Or.inl ⟨e, hstart, rfl⟩

section parts

open Attempt

variable {R : World → World → Prop}

/-- **A transaction of its own** is made of its begin, its body and one of two ends. -/
theorem moves_transact {body : TxId → Call α} (hR : Chains R) (hstart : Moves R start)
    (hbody : ∀ t, Moves R (body t)) (hcommit : ∀ t, Moves R (commit t))
    (habandon : ∀ t, Moves R (inStore (Store.abandon t))) : Moves R (transact body) := by
  refine hstart.bind hR fun t => (hbody t).outcome.bind hR fun r => ?_
  -- However the body ends, so does the transaction.
  cases r with
  | ok a => exact (hcommit t).bind hR fun _ => Moves.pure hR a
  | error e => exact (habandon t).bind hR fun _ => Moves.fail hR e

end parts

/-! ## Calls elsewhere -/

section elsewhere

open Attempt

theorem moves_elsewhere {m : Call α} (h : Moves Aside m) : Moves Elsewhere m :=
  fun w r w' hw => (h w r w' hw).toElsewhere

theorem moves_nextDisturbance : Moves Aside (Attempt.modify World.nextDisturbance : Call Unit) :=
  Moves.modify aside_nextDisturbance

theorem moves_countSend : Moves Aside (Attempt.modify World.countSend : Call Unit) :=
  Moves.modify aside_countSend

theorem moves_now : Moves Aside now :=
  Moves.read aside_chains _

theorem answers_freshId : freshId.Answers := by
  intro w r w' h
  cases h
  exact ⟨_, rfl⟩

theorem moves_freshId : Moves Aside freshId := by
  intro w r w' h
  cases h
  exact ⟨⟨⟨w.store.available, rfl⟩, rfl, Nat.le_succ _⟩, ⟨w.transport.available, rfl⟩⟩

theorem moves_pushQueue (id : OrderId) : Moves Aside (pushQueue id) :=
  Moves.modify fun _ => aside_of_store_eq rfl rfl rfl rfl

theorem moves_popQueue (limitMs : Option Nat) : Moves Aside (popQueue limitMs) := by
  intro w r w' h
  unfold popQueue at h
  split at h
  · cases h
    exact aside_of_store_eq rfl rfl rfl rfl
  · split at h
    · cases h
      exact aside_chains.refl w
    · split at h
      · cases h
        exact aside_of_store_eq rfl rfl rfl rfl
      · cases h

theorem moves_sleep (r : StopRequest) (ms : Nat) : Moves Aside (r.sleep ms) := by
  intro w a w' h
  unfold StopRequest.sleep at h
  split at h
  · cases h
    exact aside_chains.refl w
  · split at h
    · cases h
      exact aside_of_store_eq rfl rfl rfl rfl
    · cases h
      exact aside_of_store_eq rfl rfl rfl rfl

/-! ## Calls on the transport -/

theorem moves_onTransport {ε : Type} (m : Attempt Transport ε α) :
    Moves Elsewhere (m.onPart World.transport fun t w => { w with transport := t }) := by
  intro w r w' h
  obtain ⟨t', -, rfl⟩ := onPart_eq_some_iff.mp h
  exact elsewhere_of_store_eq rfl rfl rfl

theorem moves_inTransport (m : TransportCall α) : Moves Elsewhere (inTransport m) :=
  (moves_onTransport m).mapError _

theorem moves_trySend (m : Message) : Moves Elsewhere (trySend m) := by
  refine (moves_elsewhere moves_nextDisturbance).bind elsewhere_chains fun _ => ?_
  refine (moves_elsewhere moves_countSend).bind elsewhere_chains fun _ => ?_
  refine (moves_elsewhere moves_freshId).bind elsewhere_chains fun id => ?_
  exact (moves_onTransport _).outcome

theorem moves_receive (waitMs : Nat) : Moves Elsewhere (receive waitMs) := by
  refine (moves_elsewhere moves_nextDisturbance).bind elsewhere_chains fun _ => ?_
  refine (moves_elsewhere moves_freshId).bind elsewhere_chains fun receipt => ?_
  refine (Moves.read elsewhere_chains _).bind elsewhere_chains fun begun => ?_
  refine (moves_inTransport _).bind elsewhere_chains fun (found, ended) => ?_
  have hclock : Moves Elsewhere (Attempt.modify fun w : World =>
      { w with clock := w.clock.advanceTo ended } : Call Unit) :=
    Moves.modify fun _ => elsewhere_of_store_eq rfl rfl rfl
  exact hclock.bind elsewhere_chains fun _ => Moves.pure elsewhere_chains _

theorem moves_acknowledge (receipt : String) : Moves Elsewhere (acknowledge receipt) :=
  (moves_elsewhere moves_nextDisturbance).bind elsewhere_chains fun _ => moves_inTransport _

end elsewhere

end Call

end OrderFlow
