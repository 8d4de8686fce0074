import OrderFlow.Proofs.Run.Turn

/-! # Orders and outbox rows in lockstep

    In outbox mode an order that is to be processed has one row that is still
    owed work, and no other order has any (`InStep`).  Two changes keep that:
    rows are rewritten and stay owed work, or one order and one row about it
    change together.

    Every turn of a pipeline in outbox mode comes down to one of them
    (`Advances`); that settled rows stay as they are, and that rows are
    counted, is read off there as well. -/

namespace OrderFlow

open World

/-- The row is still owed work. -/
abbrev OutboxRow.Live (e : OutboxRow) : Prop :=
  e.status.isSettled = false

/-! ## Orders and rows -/

/-- **Every pending order has one live row, and no other order has any.** -/
structure InStep (orders : OrderId → Option Order) (rows : RowId → Option OutboxRow) : Prop where
  owed : ∀ {row e}, rows row = some e → e.Live →
    ∃ o, orders e.order = some o ∧ o.status = .pending
  covered : ∀ {id o}, orders id = some o → o.status = .pending →
    ∃ row e, rows row = some e ∧ e.order = id ∧ e.Live
  unique : ∀ {row row' e e'}, rows row = some e → rows row' = some e' → e.Live → e'.Live →
    e.order = e'.order → row = row'

section inStep
variable {orders orders' : OrderId → Option Order} {rows rows' : RowId → Option OutboxRow}
  {o : Order} {id : OrderId} {e : OutboxRow} {row : RowId}

/-- **Rows are rewritten** and stay live. -/
theorem InStep.rewrite (h : InStep orders rows) (horders : ∀ i, orders' i = orders i)
    (hrows : ∀ i, rows' i = rows i ∨ ∃ e e', rows i = some e ∧ rows' i = some e' ∧
      e'.order = e.order ∧ e.Live ∧ e'.Live) : InStep orders' rows' := by
  -- Each live row was a live row about the same order.
  have horigin {i : RowId} {e' : OutboxRow} (he' : rows' i = some e') (hlive : e'.Live) :
      ∃ e, rows i = some e ∧ e.order = e'.order ∧ e.Live := by
    rcases hrows i with hsame | ⟨e₀, e₁, he₀, he₁, horder, hlive₀, -⟩
    · exact ⟨e', hsame ▸ he', rfl, hlive⟩
    · rw [he', Option.some.injEq] at he₁
      exact ⟨e₀, he₀, he₁ ▸ horder.symm, hlive₀⟩
  refine ⟨?_, ?_, ?_⟩
  · intro i e' he' hlive
    obtain ⟨e, he, horder, hlive'⟩ := horigin he' hlive
    rw [← horder, horders]
    exact h.owed he hlive'
  · intro id o ho hpending
    rw [horders] at ho
    obtain ⟨i, e, he, horder, hlive⟩ := h.covered ho hpending
    rcases hrows i with hsame | ⟨e₀, e₁, he₀, he₁, horder', -, hlive₁⟩
    · exact ⟨i, e, hsame.trans he, horder, hlive⟩
    · rw [he, Option.some.injEq] at he₀
      exact ⟨i, e₁, he₁, by rw [horder', ← he₀, horder], hlive₁⟩
  · intro i i' e₁ e₁' he₁ he₁' hlive hlive' heq
    obtain ⟨e, he, horder, hlive₀⟩ := horigin he₁ hlive
    obtain ⟨e', he', horder', hlive₀'⟩ := horigin he₁' hlive'
    exact h.unique he he' hlive₀ hlive₀' (by rw [horder, horder', heq])

/-- **An order and a row about it change together.**  No other row about the
    order is live, and the new row is if the order is to be processed. -/
theorem InStep.change (h : InStep orders rows)
    (horders : ∀ i, orders' i = if id = i then some o else orders i)
    (hrows : ∀ i, rows' i = if row = i then some e else rows i) (horder : e.order = id)
    (hwas : ∀ e₀, rows row = some e₀ → e₀.order = id)
    (honly : ∀ i e₀, rows i = some e₀ → e₀.Live → e₀.order = id → i = row)
    (hboth : o.status = .pending ↔ e.Live) : InStep orders' rows' := by
  have hself : rows' row = some e := by rw [hrows, if_pos rfl]
  have hother {i : RowId} (hi : row ≠ i) : rows' i = rows i := by rw [hrows, if_neg hi]
  -- Live rows other than this one are about other orders.
  have hapart {i : RowId} {e₀ : OutboxRow} (hi : row ≠ i) (he₀ : rows' i = some e₀)
      (hlive : e₀.Live) : e₀.order ≠ id := by
    intro heq
    rw [hother hi] at he₀
    exact hi (honly i e₀ he₀ hlive heq).symm
  refine ⟨?_, ?_, ?_⟩
  · intro i e₀ he₀ hlive
    by_cases hi : row = i
    · subst hi
      rw [hself, Option.some.injEq] at he₀
      subst he₀
      exact ⟨o, by rw [horders, if_pos horder.symm], hboth.mpr hlive⟩
    · have hne := hapart hi he₀ hlive
      rw [hother hi] at he₀
      rw [horders, if_neg (Ne.symm hne)]
      exact h.owed he₀ hlive
  · intro i o₀ ho₀ hpending
    rw [horders] at ho₀
    split at ho₀
    · next hi =>
      cases ho₀
      exact ⟨row, e, hself, horder.trans hi, hboth.mp hpending⟩
    · next hi =>
      -- The row that covers another order is not the one that was written.
      obtain ⟨row₀, e₀, he₀, horder₀, hlive⟩ := h.covered ho₀ hpending
      have hne : row ≠ row₀ := by
        intro heq
        exact hi ((hwas e₀ (heq ▸ he₀)).symm.trans horder₀)
      exact ⟨row₀, e₀, (hother hne).trans he₀, horder₀, hlive⟩
  · intro i i' e₁ e₁' he₁ he₁' hlive hlive' heq
    by_cases hi : row = i
    · by_cases hi' : row = i'
      · exact hi.symm.trans hi'
      · subst hi
        rw [hself, Option.some.injEq] at he₁
        exact absurd (by rw [← heq, ← he₁, horder]) (hapart hi' he₁' hlive')
    · by_cases hi' : row = i'
      · subst hi'
        rw [hself, Option.some.injEq] at he₁'
        exact absurd (by rw [heq, ← he₁', horder]) (hapart hi he₁ hlive)
      · rw [hother hi] at he₁
        rw [hother hi'] at he₁'
        exact h.unique he₁ he₁' hlive hlive' heq

end inStep

/-! ## Turns in outbox mode -/

/-- **A deed in outbox mode**: orders are announced there, and their rows'
    pollers alone process them. -/
def Deed.InOutbox : Deed → Prop
  | .accept mode _ | Deed.readmit mode _ _ => mode = .outbox
  | .release | .lease | .settle _ | .wait | .others => True
  | .process _ _ | .round _ | .forward _ | .consume _ => False

/-- **In lockstep**: committed orders and rows, and the rows that the poll under
    way has still to see to. -/
structure World.Lockstep (w : World) (claimed : List OutboxRow) : Prop where
  inStep : InStep w.store.orders.find? w.store.rows.find?
  ordersDrawn : ∀ {id o}, w.store.orders.find? id = some o → w.ids.HasDrawn id.uuid
  rowsDrawn : ∀ {row e}, w.store.rows.find? row = some e → w.ids.HasDrawn row.uuid
  held : ∀ e ∈ claimed, ∃ e', w.store.rows.find? e.id = some e' ∧ e'.order = e.order ∧ e'.Live
  distinct : (claimed.map (·.id)).Nodup

/-- **What a turn does to orders and rows** in outbox mode, with the order that
    comes up in it. -/
inductive Advances (w : World) :
    List OutboxRow → Option OrderId → World → List OutboxRow → Prop where
  /-- An order comes up, and a new row with it. -/
  | raises {w' : World} {claimed : List OutboxRow} {o : Order} {e : OutboxRow}
    (horders : ∀ i, w'.store.orders.find? i =
      if o.id = i then some o else w.store.orders.find? i)
    (hrows : ∀ i, w'.store.rows.find? i = if e.id = i then some e else w.store.rows.find? i)
    (horder : e.order = o.id) (hpending : o.status = .pending) (hlive : e.Live)
    (hwas : ∀ o', w.store.orders.find? o.id = some o' → o'.status ≠ .pending)
    (hnew : w.store.rows.find? e.id = none)
    (hdrawn : w'.ids.HasDrawn o.id.uuid ∧ w'.ids.HasDrawn e.id.uuid) :
    Advances w claimed (some o.id) w' claimed
  /-- Rows are leased, or freed, or nothing is written. -/
  | rewrites {w' : World} {claimed claimed' : List OutboxRow}
    (horders : ∀ i, w'.store.orders.find? i = w.store.orders.find? i)
    (hrows : ∀ i, w'.store.rows.find? i = w.store.rows.find? i ∨
      ∃ e e', w.store.rows.find? i = some e ∧ w'.store.rows.find? i = some e' ∧
        e'.order = e.order ∧ e.Live ∧ e'.Live)
    (hclaimed : ∀ e ∈ claimed', ∃ e', w.store.rows.find? e.id = some e' ∧
      e'.order = e.order ∧ e'.Live) (hdistinct : (claimed'.map (·.id)).Nodup) :
    Advances w claimed none w' claimed'
  /-- A claimed row is settled together with its order. -/
  | settles {w' : World} {e row row' : OutboxRow} {o : Order} {rest left : List OutboxRow}
    (hrow : w.store.rows.find? e.id = some row) (hlive : row.Live)
    (ho : (w.store.orders.find? row.order).isSome)
    (horders : ∀ i, w'.store.orders.find? i =
      if row.order = i then some o else w.store.orders.find? i)
    (hrows : ∀ i, w'.store.rows.find? i = if e.id = i then some row' else w.store.rows.find? i)
    (horder : row'.order = row.order) (hboth : o.status = .pending ↔ row'.Live)
    (hleft : left = rest ∨ left = []) : Advances w (e :: rest) none w' left

section advances
variable {w w' : World} {claimed claimed' : List OutboxRow} {raised : Option OrderId}

/-- Nothing was written, and claimed rows may have been dropped. -/
theorem World.Lockstep.unwritten (h : w.Lockstep claimed) {called : List OrderId}
    (hwrote : Wrote w called {} w') (hclaimed : claimed'.Sublist claimed) :
    Advances w claimed none w' claimed' := by
  obtain ⟨horders, hrows, -⟩ := hwrote.unchanged
  exact .rewrites horders (fun i => Or.inl (hrows i)) (fun e he => h.held e (hclaimed.subset he))
    (h.distinct.sublist (hclaimed.map _))

/-- **One turn keeps orders and rows in lockstep.** -/
theorem Advances.lockstep (h : Advances w claimed raised w' claimed') (hw : w.Lockstep claimed)
    (hids : w.ids.next ≤ w'.ids.next) : w'.Lockstep claimed' := by
  cases h with
  | @raises _ _ o e horders hrows horder hpending hlive hwas hnew hdrawn =>
    -- The new row takes the place of no other.
    have hkept {i : RowId} {e₀ : OutboxRow} (he₀ : w.store.rows.find? i = some e₀) :
        w'.store.rows.find? i = some e₀ := by
      rw [hrows, if_neg (by rintro rfl; simp [hnew] at he₀), he₀]
    refine ⟨hw.inStep.change horders hrows horder (by simp [hnew]) ?_
      ⟨fun _ => hlive, fun _ => hpending⟩, IdSupply.hasDrawn_upsert hw.ordersDrawn hids horders hdrawn.1,
      IdSupply.hasDrawn_upsert hw.rowsDrawn hids hrows hdrawn.2, ?_, hw.distinct⟩
    · -- The order was not to be processed before, so no row about it was live.
      intro i e₀ he₀ hlive₀ horder₀
      obtain ⟨o', ho', hpending'⟩ := hw.inStep.owed he₀ hlive₀
      exact absurd hpending' (hwas o' (horder₀ ▸ ho'))
    · intro e₀ he₀
      obtain ⟨e', he', hrest⟩ := hw.held e₀ he₀
      exact ⟨e', hkept he', hrest⟩
  | rewrites horders hrows hclaimed hdistinct =>
    refine ⟨hw.inStep.rewrite horders hrows, ?_, ?_, ?_, hdistinct⟩
    · intro i o₀ ho₀
      rw [horders] at ho₀
      exact (hw.ordersDrawn ho₀).mono hids
    · intro i e₀ he₀
      rcases hrows i with hsame | ⟨e₁, -, he₁, -⟩
      · exact (hw.rowsDrawn (hsame ▸ he₀)).mono hids
      · exact (hw.rowsDrawn he₁).mono hids
    · intro e₀ he₀
      obtain ⟨e', he', horder, hlive⟩ := hclaimed e₀ he₀
      rcases hrows e₀.id with hsame | ⟨e₁, e₂, he₁, he₂, horder', -, hlive'⟩
      · exact ⟨e', hsame.trans he', horder, hlive⟩
      · rw [he', Option.some.injEq] at he₁
        exact ⟨e₂, he₂, by rw [horder', ← he₁, horder], hlive'⟩
  | @settles _ e row row' o rest left hrow hlive ho horders hrows horder hboth hleft =>
    have hnodup : e.id ∉ rest.map (·.id) ∧ (rest.map (·.id)).Nodup :=
      List.nodup_cons.mp hw.distinct
    obtain ⟨o₁, ho₁⟩ := Option.isSome_iff_exists.mp ho
    refine ⟨hw.inStep.change horders hrows horder ?_ ?_ hboth,
      IdSupply.hasDrawn_upsert hw.ordersDrawn hids horders ((hw.ordersDrawn ho₁).mono hids),
      IdSupply.hasDrawn_upsert hw.rowsDrawn hids hrows ((hw.rowsDrawn hrow).mono hids), ?_, ?_⟩
    · intro e₀ he₀
      rw [hrow, Option.some.injEq] at he₀
      rw [he₀]
    · -- The row that is settled is the only live one about the order.
      intro i e₀ he₀ hlive₀ horder₀
      exact hw.inStep.unique he₀ hrow hlive₀ hlive horder₀
    · intro e₀ he₀
      rcases hleft with rfl | rfl
      · have hne : e.id ≠ e₀.id := fun heq => hnodup.1 (heq ▸ List.mem_map_of_mem he₀)
        obtain ⟨e', he', hrest⟩ := hw.held e₀ (List.mem_cons_of_mem _ he₀)
        exact ⟨e', by rw [hrows, if_neg hne, he'], hrest⟩
      · cases he₀
    · rcases hleft with rfl | rfl
      · exact hnodup.2
      · simp

/-- **A settled row stays as it is.** -/
theorem Advances.settled_stays (h : Advances w claimed raised w' claimed') {row : RowId}
    {e : OutboxRow} (he : w.store.rows.find? row = some e) (hsettled : ¬ e.Live) :
    w'.store.rows.find? row = some e := by
  cases h with
  | raises _ hrows _ _ _ _ hnew _ =>
    rw [hrows, if_neg (by rintro rfl; simp [hnew] at he), he]
  | rewrites _ hrows _ _ =>
    rcases hrows row with hsame | ⟨e₁, e₂, he₁, -, -, hlive, -⟩
    · exact hsame.trans he
    · rw [he, Option.some.injEq] at he₁
      exact absurd (he₁ ▸ hlive) hsettled
  | settles hrow hlive _ _ hrows _ _ _ =>
    rw [hrows, if_neg ?_, he]
    rintro rfl
    rw [hrow, Option.some.injEq] at he
    exact hsettled (he ▸ hlive)

/-- How many rows there are about an order. -/
def Store.countRows (s : Store) (id : OrderId) : Nat :=
  s.listRows.countP (·.order = id)

/-- The rows about an order that are settled, or those that are still owed work. -/
def Store.rowsAbout (s : Store) (id : OrderId) (settled : Bool) : List OutboxRow :=
  s.listRows.filter fun e => e.order = id ∧ e.status.isSettled = settled

theorem Store.length_rowsAbout (s : Store) (id : OrderId) :
    (s.rowsAbout id true).length + (s.rowsAbout id false).length = s.countRows id := by
  unfold rowsAbout countRows
  induction s.listRows with
  | nil => rfl
  | cons e rest ih =>
    -- A row is settled or live, and not both.
    have hone : e.status.isSettled = true ∨ e.status.isSettled = false := by
      cases e.status <;> simp [Status.isSettled]
    rcases hone with hsettled | hsettled <;> by_cases he : e.order = id
    all_goals
      simp [hsettled, he] at ih ⊢
      omega

theorem Store.Orderly.mem_rowsAbout_iff {s : Store} (h : s.Orderly) {id : OrderId}
    {settled : Bool} {e : OutboxRow} : e ∈ s.rowsAbout id settled ↔
      s.rows.find? e.id = some e ∧ e.order = id ∧ e.status.isSettled = settled := by
  unfold rowsAbout
  rw [List.mem_filter, h.mem_listRows_iff, decide_eq_true_eq]

/-- **A pending order has one row that is still owed work.** -/
theorem World.Lockstep.rowsAbout_pending (hw : w.Lockstep claimed) (horderly : w.store.Orderly)
    {id : OrderId} {o : Order} (ho : w.store.orders.find? id = some o)
    (hpending : o.status = .pending) : ∃ e, w.store.rowsAbout id false = [e] := by
  obtain ⟨row, e, he, horder, hlive⟩ := hw.inStep.covered ho hpending
  obtain rfl := horderly.rows.own he
  have hlisted : e ∈ w.store.rowsAbout id false :=
    horderly.mem_rowsAbout_iff.mpr ⟨he, horder, hlive⟩
  have hdistinct : ((w.store.rowsAbout id false).map (·.id)).Nodup :=
    (List.filter_sublist.map _).nodup horderly.listRows_nodup
  have hunique {e₁ e₂ : OutboxRow} (he₁ : e₁ ∈ w.store.rowsAbout id false)
      (he₂ : e₂ ∈ w.store.rowsAbout id false) : e₁.id = e₂.id := by
    obtain ⟨hfound₁, horder₁, hlive₁⟩ := horderly.mem_rowsAbout_iff.mp he₁
    obtain ⟨hfound₂, horder₂, hlive₂⟩ := horderly.mem_rowsAbout_iff.mp he₂
    exact hw.inStep.unique hfound₁ hfound₂ hlive₁ hlive₂ (horder₁.trans horder₂.symm)
  rcases hrows : w.store.rowsAbout id false with _ | ⟨e₁, _ | ⟨e₂, rest⟩⟩
  · rw [hrows] at hlisted
    cases hlisted
  · exact ⟨e₁, rfl⟩
  · -- Two rows about the order would be one row listed twice.
    rw [hrows] at hdistinct hunique
    have hsame : e₁.id = e₂.id := hunique (by simp) (by simp)
    simp [hsame] at hdistinct

/-- **No other order has any.** -/
theorem World.Lockstep.rowsAbout_settled (hw : w.Lockstep claimed) (horderly : w.store.Orderly)
    {id : OrderId} {o : Order} (ho : w.store.orders.find? id = some o)
    (hsettled : o.status ≠ .pending) : w.store.rowsAbout id false = [] := by
  rw [List.eq_nil_iff_forall_not_mem]
  intro e he
  obtain ⟨hfound, rfl, hlive⟩ := horderly.mem_rowsAbout_iff.mp he
  obtain ⟨o', ho', hpending⟩ := hw.inStep.owed hfound hlive
  rw [ho, Option.some.injEq] at ho'
  exact hsettled (ho' ▸ hpending)

/-- **A turn adds one row about the order that comes up in it**, and no other. -/
theorem Advances.countRows (h : Advances w claimed raised w' claimed') (hw : w.store.Orderly)
    (hw' : w'.store.Orderly) (id : OrderId) :
    w'.store.countRows id = w.store.countRows id + if raised = some id then 1 else 0 := by
  have hlisted (s : Store) :
      s.countRows id = (s.rows.values.map (·.order)).countP (· = id) := by
    unfold Store.countRows Store.listRows
    rw [(Store.sortRows_perm _).countP_eq, List.countP_map]
    rfl
  -- Where the rows stay about the same orders, their number is the same.
  have hsame (hrows : ∀ i, (w'.store.rows.find? i).map (·.order) =
      (w.store.rows.find? i).map (·.order)) : w'.store.countRows id = w.store.countRows id := by
    rw [hlisted, hlisted]
    exact (hw.rows.distinct.map_perm hw'.rows.distinct hrows).countP_eq _
  cases h with
  | @raises _ _ o e _ hrows horder _ _ _ hnew _ =>
    rw [hlisted, hlisted,
      ((hw.rows.distinct.perm_cons hw'.rows.distinct hnew hrows).map (·.order)).countP_eq,
      List.map_cons, List.countP_cons, horder]
    simp
  | rewrites _ hrows _ _ =>
    rw [if_neg (by simp), Nat.add_zero]
    refine hsame fun i => ?_
    rcases hrows i with hsame | ⟨e₁, e₂, he₁, he₂, horder, -, -⟩
    · rw [hsame]
    · rw [he₁, he₂, Option.map_some, Option.map_some, horder]
  | settles hrow _ _ _ hrows horder _ _ =>
    rw [if_neg (by simp), Nat.add_zero]
    refine hsame fun i => ?_
    rw [hrows]
    split
    · next hi => rw [← hi, hrow, Option.map_some, Option.map_some, horder]
    · rfl

/-! ## Every turn is one of these -/

/-- What an order is announced with in outbox mode, when it comes up. -/
theorem World.Lockstep.raise {w₁ : World} {o : Order} {correlation : Option String}
    {tx : Transaction} (hw : w.Lockstep claimed) (hlasts : w₁.ids.Lasts)
    (hwrote : Wrote w [] tx w₁) (hraises : Raises w .outbox o correlation tx w₁.ids)
    (hpending : o.status = .pending)
    (hwas : ∀ o', w.store.orders.find? o.id = some o' → o'.status ≠ .pending)
    (hdrawn : w₁.ids.HasDrawn o.id.uuid) : Advances w claimed (some o.id) w₁ claimed := by
  obtain ⟨k, now, hle, hlt, hrow⟩ := hraises.row rfl
  have hk : k < 2 ^ 122 := Nat.lt_of_lt_of_le hlt hlasts
  refine .raises (e := .announcing ⟨.versionFour k⟩ o.id correlation now)
    (fun i => (hwrote.orders i).trans (hraises.order i))
    (fun i => (hwrote.rows i).trans (hrow i)) rfl hpending rfl hwas ?_
    ⟨hdrawn, IdSupply.hasDrawn_versionFour hlt⟩
  exact Option.eq_none_iff_forall_ne_some.mpr fun e he =>
    IdSupply.not_hasDrawn hle hk (hw.rowsDrawn he)

/-- What the end of an attempt makes of its order and of the row that has led
    to it: both are done, or both are not. -/
theorem OutboxProcessor.settled_live (p : OutboxProcessor) (e row : OutboxRow) (o : Order)
    (now now' : Instant) (failure : Option String) :
    (o.after now p.maxRetries failure).status = .pending ↔
      (p.settled e now' (o.outcome p.maxRetries failure) row).Live := by
  unfold Order.after Order.outcome
  cases failure with
  | none => exact iff_of_false Status.noConfusion Bool.noConfusion
  | some reason =>
    dsimp only
    split
    · exact iff_of_true rfl rfl
    · exact iff_of_false Status.noConfusion Bool.noConfusion

/-- A claimed row is settled, or nothing happens. -/
theorem World.Lockstep.settle {p : OutboxProcessor} {e : OutboxRow} {rest left : List OutboxRow}
    {now : Instant} {r : Except OperationError Outcome} (hw : w.Lockstep (e :: rest))
    (horderly : w.store.Orderly) (hleft : left = rest ∨ left = [])
    (h : p.settle e now w = some (r, w')) : Advances w (e :: rest) none w' left := by
  obtain ⟨row, hrow, horder, hlive⟩ := hw.held e List.mem_cons_self
  obtain ⟨o, ho, hpending⟩ := hw.inStep.owed hrow hlive
  have hdropped : left.Sublist (e :: rest) := by
    rcases hleft with rfl | rfl
    · exact List.sublist_cons_self _ _
    · exact List.nil_sublist _
  cases OutboxProcessor.settle_ended horderly h with
  | failed _ hwrote => exact hw.unwritten hwrote hdropped
  | refused hwrote _ => exact hw.unwritten hwrote hdropped
  | committed hQ hwrote =>
    cases hQ with
    | @settled outcome called tx row₀ htries hrow₀ =>
      rw [hrow, Option.some.injEq] at hrow₀
      subst hrow₀
      rw [horder] at ho
      -- The order of a live row is to be processed, so the processor was called.
      cases htries with
      | passed ho' hstatus =>
        rw [ho, Option.some.injEq] at ho'
        exact absurd (ho' ▸ hpending) hstatus
      | @tried o' now' failure ho' hid _ _ =>
        rw [ho, Option.some.injEq] at ho'
        subst ho'
        have horders (i : OrderId) : w'.store.orders.find? i =
            if row.order = i then some (o.after now' p.maxRetries failure)
            else w.store.orders.find? i := by
          rw [hwrote.orders, Store.orderIn_putRow, Store.orderIn_hold, Store.orderIn_concluded,
            Store.orderIn_hold, Store.orderIn_empty, hid, horder]
        have hrows (i : RowId) : w'.store.rows.find? i =
            if e.id = i then some (p.settled e now (o.outcome p.maxRetries failure) row)
            else w.store.rows.find? i := by
          rw [hwrote.rows, Store.rowIn_putRow, Store.rowIn_hold, Store.rowIn_concluded,
            Store.rowIn_hold, Store.rowIn_empty]
        refine .settles hrow hlive (by rw [horder, ho]; rfl) horders hrows ?_
          (p.settled_live e row o now' now failure) hleft
        cases o.outcome p.maxRetries failure <;> rfl

/-- An attempt on the order of a live row does not fail for good. -/
theorem World.Lockstep.not_lasting {p : OutboxProcessor} {e : OutboxRow} {rest : List OutboxRow}
    {now : Instant} {cause : OperationError} (hw : w.Lockstep (e :: rest))
    (horderly : w.store.Orderly) (h : p.settle e now w = some (.error cause, w')) :
    cause.isLasting = false := by
  obtain ⟨row, hrow, horder, hlive⟩ := hw.held e List.mem_cons_self
  obtain ⟨o, ho, -⟩ := hw.inStep.owed hrow hlive
  cases OutboxProcessor.settle_ended horderly h with
  | refused _ _ => rfl
  | failed hQ _ =>
    cases hQ with
    | missing hnone => rfl
    | failed htries =>
      cases htries with
      | unknown hnone =>
        -- Only this failure is for good, and the order of a live row is there.
        rw [← horder, ho] at hnone
        cases hnone

/-- An order is accepted, or nothing happens. -/
theorem World.Lockstep.accept {correlation : Option String} {r : Except OperationError OrderId}
    (hw : w.Lockstep claimed) (horderly : w.store.Orderly) (hids : w'.ids.Lasts)
    (h : PublishMode.outbox.accept correlation w = some (r, w')) :
    Advances w claimed (Deed.accept .outbox r).raised w' claimed := by
  rcases PublishMode.accept_ends horderly h with
    ⟨rfl, -, called, hwrote⟩ | ⟨id, now, tx, w₁, r₁, rfl, hlt, hwrote, hraises, -, hemits, rfl⟩
  · exact hw.unwritten hwrote (List.Sublist.refl _)
  cases hemits with
  | noted =>
    have hdrawn : w'.ids.HasDrawn (.versionFour w.ids.next) := IdSupply.hasDrawn_versionFour hlt
    refine hw.raise hids hwrote hraises rfl (fun o ho => ?_) hdrawn
    -- The id was not drawn before, so there was no such order.
    exact absurd (hw.ordersDrawn ho)
      (IdSupply.not_hasDrawn (Nat.le_refl _) (Nat.lt_of_lt_of_le hlt hids))
  | queued hmode | sent hmode | untold hmode => cases hmode

/-- An order gets another chance, or nothing happens. -/
theorem World.Lockstep.readmit {id : OrderId} {r : Except OperationError Unit}
    (hw : w.Lockstep claimed) (horderly : w.store.Orderly) (hids : w'.ids.Lasts)
    (h : PublishMode.outbox.readmit id w = some (r, w')) :
    Advances w claimed ( Deed.readmit .outbox id r).raised w' claimed := by
  rcases PublishMode.readmit_ends horderly h with
    ⟨e, called, rfl, hknown, hwrote⟩ | ⟨o, now, tx, w₁, ho, rfl, hstatus, hwrote, hraises, hemits⟩
  · rw [Deed.raised_of_known hknown]
    exact hw.unwritten hwrote (List.Sublist.refl _)
  cases hemits with
  | noted =>
    -- It was given up on before, so nothing was left to do about it.
    refine hw.raise (o := o.moved now (.reset PublishMode.readmitReason)) hids hwrote hraises rfl
      (fun o' ho' => ?_) ?_
    · rw [Order.moved_id, ho, Option.some.injEq] at ho'
      rw [← ho', hstatus]
      simp
    · exact (hw.ordersDrawn ho).mono hwrote.ids
  | queued hmode | sent hmode | untold hmode => cases hmode

/-- **What a turn in outbox mode does**, if orders and rows were in lockstep. -/
theorem Turn.advances {d : Deed} (h : Turn (w, claimed) d (w', claimed')) (hd : d.InOutbox)
    (hw : w.Lockstep claimed) (horderly : w.store.Orderly) (hids : w'.ids.Lasts) :
    Advances w claimed d.raised w' claimed' := by
  have hkept {w₁ : World} (horders : ∀ i, w₁.store.orders.find? i = w.store.orders.find? i)
      (hrows : ∀ i, w₁.store.rows.find? i = w.store.rows.find? i) :
      Advances w claimed none w₁ claimed :=
    .rewrites horders (fun i => Or.inl (hrows i)) hw.held hw.distinct
  cases h with
  | accept h =>
    obtain rfl : _ = PublishMode.outbox := hd
    exact hw.accept horderly hids h
  | readmit h =>
    obtain rfl : _ = PublishMode.outbox := hd
    exact World.Lockstep.readmit hw horderly hids h
  | release h =>
    obtain ⟨horders, hrows⟩ := (Claimant.release_ended horderly h).rewrites
    refine .rewrites horders (fun i => ?_) (by simp) (by simp)
    rcases hrows i with hsame | ⟨e, e', he, he', hprocessing, rfl⟩
    · exact Or.inl hsame
    · refine Or.inr ⟨e, _, he, he', rfl, ?_, rfl⟩
      rw [OutboxRow.Live, hprocessing]
      rfl
  | lease h =>
    cases Claimant.lease_ended horderly h with
    | committed hQ hwrote =>
      have hleases := hQ.2 claimed' rfl
      obtain ⟨horders, hrows⟩ := hleases.rewrites.tables hwrote
      have hlive (e : OutboxRow) (he : e ∈ claimed') : e.Live := by
        rw [OutboxRow.Live, (hleases.seen e he).2]
        rfl
      refine .rewrites horders (fun i => ?_) (fun e he => ?_) hleases.distinct
      · rcases hrows i with hsame | ⟨e, e', he, he', hfound, rfl⟩
        · exact Or.inl hsame
        · exact Or.inr ⟨e, _, he, he', rfl, hlive e hfound, rfl⟩
      · exact ⟨e, (hleases.seen e he).1, rfl, hlive e he⟩
  | noLease h =>
    obtain ⟨called, hwrote⟩ := (Claimant.lease_ended horderly h).of_error
    exact hw.unwritten hwrote (List.Sublist.refl _)
  | settle hleft h => exact hw.settle horderly hleft h
  | giveUp hlasting h _ =>
    rw [hw.not_lasting horderly h] at hlasting
    cases hlasting
  | wait clock => exact hkept (fun _ => rfl) fun _ => rfl
  | others _ _ _ => exact hkept (fun _ => rfl) fun _ => rfl
  | process | round | forward | consume => exact hd.elim

end advances

/-! ## The property -/

section property
variable {w₀ w : World} {claimed : List OutboxRow} {deeds : List Deed}

/-- There is no order and no row. -/
theorem lockstep_empty (h : w.store = {}) : w.Lockstep [] := by
  have horders (i : OrderId) : w.store.orders.find? i = none := by
    rw [h]
    rfl
  have hrows (i : RowId) : w.store.rows.find? i = none := by
    rw [h]
    rfl
  refine ⟨⟨?_, ?_, ?_⟩, ?_, ?_, by simp, by simp⟩ <;> simp [horders, hrows]

/-- **Along a run**: orders and rows are in lockstep, and rows are counted. -/
theorem Turns.lockstep (hempty : w₀.store = {}) (h : Turns (w₀, []) deeds (w, claimed))
    (hdeeds : ∀ d ∈ deeds, d.InOutbox) (hids : w.ids.Lasts) :
    w.Lockstep claimed ∧ ∀ id, w.store.countRows id = deeds.countP (·.raised = some id) := by
  have horderly : w₀.store.Orderly := hempty ▸ Store.orderly_empty
  refine h.keep (P := fun c deeds => c.1.Lockstep c.2 ∧
    ∀ id, c.1.store.countRows id = deeds.countP (·.raised = some id)) hdeeds ?_ horderly hids
    ⟨lockstep_empty hempty, fun id => ?_⟩
  · rintro c₁ c₂ deeds d horderly hids hd hturn ⟨hlockstep, hcount⟩
    have hadvances := hturn.advances hd hlockstep horderly hids
    refine ⟨hadvances.lockstep hlockstep (hturn.posts.ids_le horderly), fun id => ?_⟩
    rw [hadvances.countRows horderly (hturn.posts.orderly horderly), hcount]
    simp [List.countP_append, List.countP_cons]
  · show w₀.store.countRows id = 0
    rw [hempty]
    rfl

/-- **Settled rows stay as they are** for the rest of a run. -/
theorem Turns.settled_stays {c c' : World × List OutboxRow} (h : Turns c deeds c')
    (hdeeds : ∀ d ∈ deeds, d.InOutbox) (hc : c.1.Lockstep c.2) (horderly : c.1.store.Orderly)
    (hids : c'.1.ids.Lasts) {row : RowId} {e : OutboxRow}
    (he : c.1.store.rows.find? row = some e) (hsettled : ¬ e.Live) :
    c'.1.store.rows.find? row = some e := by
  suffices hboth : c'.1.Lockstep c'.2 ∧ c'.1.store.rows.find? row = some e from hboth.2
  refine h.keep (P := fun c _ => c.1.Lockstep c.2 ∧ c.1.store.rows.find? row = some e) hdeeds
    ?_ horderly hids ⟨hc, he⟩
  rintro c₁ c₂ deeds d horderly hids hd hturn ⟨hlockstep, he⟩
  have hadvances := hturn.advances hd hlockstep horderly hids
  exact ⟨hadvances.lockstep hlockstep (hturn.posts.ids_le horderly),
    hadvances.settled_stays he hsettled⟩

/-- **Orders and outbox rows move in lockstep.**  At any time in any run in
    outbox mode from an empty store, in which orders are accepted and
    readmitted and pollers process their rows, whatever the processor answers,
    the settings are and the clock shows, and whenever the store is available:

    * an order that is to be processed has exactly one row that is still owed
      work, and an order that is done or given up on has none;
    * a settled row stays as it is for the rest of the run;
    * rows about an order, settled or not, are as many as there were times that
      it was accepted or readmitted.

    The actions of such a pipeline unfold into turns of such a run. -/
theorem orders_and_rows_in_lockstep (hempty : w₀.store = {})
    (h : Turns (w₀, []) deeds (w, claimed)) (hdeeds : ∀ d ∈ deeds, d.InOutbox)
    (hids : w.ids.Lasts) :
    (∀ id o, w.store.orders.find? id = some o → o.status = .pending →
      ∃ e, w.store.rowsAbout id false = [e]) ∧
    (∀ id o, w.store.orders.find? id = some o → o.status ≠ .pending →
      w.store.rowsAbout id false = []) ∧
    (∀ id, ∀ e ∈ w.store.rowsAbout id true, ∀ deeds' w' claimed',
      Turns (w, claimed) deeds' (w', claimed') → (∀ d ∈ deeds', d.InOutbox) →
      w'.ids.Lasts → e ∈ w'.store.rowsAbout id true) ∧
    (∀ id, (w.store.rowsAbout id true).length + (w.store.rowsAbout id false).length =
      deeds.countP (·.raised = some id)) ∧
    ∀ (a : Action) r w', a.Alone w → (∀ d, a.MayDo d → d.InOutbox) →
      a.call w = some (r, w') → Unfolds Deed.InOutbox w w' := by
  obtain ⟨hlockstep, hcount⟩ := h.lockstep hempty hdeeds hids
  have horderly : w.store.Orderly := h.orderly (hempty ▸ Store.orderly_empty)
  refine ⟨fun id o ho hpending => hlockstep.rowsAbout_pending horderly ho hpending,
    fun id o ho hsettled => hlockstep.rowsAbout_settled horderly ho hsettled, ?_, fun id => ?_,
    fun a r w' halone hkinds hcall => Action.unfolds halone hkinds hcall⟩
  · intro id e he deeds' w' claimed' hturns hdeeds' hids'
    obtain ⟨hfound, horder, hsettled⟩ := horderly.mem_rowsAbout_iff.mp he
    have hstays := hturns.settled_stays hdeeds' hlockstep horderly hids' hfound (by simp [hsettled])
    exact (hturns.orderly horderly).mem_rowsAbout_iff.mpr ⟨hstays, horder, hsettled⟩
  · rw [Store.length_rowsAbout, hcount]

end property

/-- Of two orders the first one's attempt fails and the second is processed. -/
theorem orders_and_rows_in_lockstep_retried :
    ∃ w₀ w deeds, w₀.store = {} ∧ Turns (w₀, []) deeds (w, []) ∧ (∀ d ∈ deeds, d.InOutbox) ∧
      w.ids.Lasts ∧ (∃ e, w.store.rowsAbout ⟨.versionFour 0⟩ false = [e]) ∧
      w.store.rowsAbout ⟨.versionFour 2⟩ false = [] := by
  obtain ⟨w₀, hw₀⟩ : ∃ w₀ : World, w₀ = { processor := {
      react := fun calls _ => if calls.isEmpty then { failure := some "refused" } else {} } } :=
    ⟨_, rfl⟩
  have hplay : (w₀.play [.accept .outbox none, .accept .outbox none,
      .pollOutbox {} .newYear2024]).map (fun w =>
        ((w.store.orders.find? ⟨.versionFour 0⟩).map (·.status),
          (w.store.orders.find? ⟨.versionFour 2⟩).map (·.status), w.ids.next)) =
      some (some .pending, some .processed, 4) := by
    rw [hw₀]
    decide +kernel
  obtain ⟨w, hw, heq⟩ := Option.map_eq_some_iff.mp hplay
  simp only [Prod.mk.injEq] at heq
  obtain ⟨o, ho, hpending⟩ := Option.map_eq_some_iff.mp heq.1
  obtain ⟨o', ho', hprocessed⟩ := Option.map_eq_some_iff.mp heq.2.1
  have hids : w.ids.Lasts := by
    unfold IdSupply.Lasts
    omega
  have hempty : w₀.store = {} := by rw [hw₀]
  obtain ⟨deeds, hturns, hdeeds⟩ : Unfolds Deed.InOutbox w₀ w := by
    refine World.play_unfolds (fun a ha => ⟨fun _ => ?_, fun d hd => ?_⟩) hw
    all_goals
      simp only [List.mem_cons, List.not_mem_nil, or_false] at ha
      rcases ha with rfl | rfl | rfl
    · trivial
    · trivial
    · trivial
    all_goals cases d <;> first | exact hd | trivial
  obtain ⟨hlive, hnone, -⟩ := orders_and_rows_in_lockstep hempty hturns hdeeds hids
  exact ⟨w₀, w, deeds, hempty, hturns, hdeeds, hids, hlive _ o ho hpending,
    hnone _ o' ho' (by rw [hprocessed]; simp)⟩

end OrderFlow
