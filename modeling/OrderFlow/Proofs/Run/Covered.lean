import OrderFlow.Proofs.Run.Sound

/-! # Outbox rows in every view

    In outbox mode an order that is to be processed is covered by a row that
    is still owed work: the row is written with the order, and settled only
    together with it.  `CoveredFor` says so of a transaction's view.

    Orders and rows are locked apart, so two open transactions may work on an
    order and on its row at the same time.  What keeps a commit of the one
    from breaking the view of the other is `locked`: whoever settles a row
    holds the lock of its order until the settled row is committed. -/

namespace OrderFlow

open World

/-- **Orders and outbox rows in a transaction's view.** -/
structure CoveredFor (s : Store) (ids : IdSupply) (tx : Transaction) : Prop where
  drawn : ∀ {id e}, s.rowIn tx id = some e → ids.HasDrawn id.uuid
  known : ∀ {id e}, s.rowIn tx id = some e → ∃ o, s.orderIn tx e.order = some o
  done : ∀ {id e}, s.rowIn tx id = some e → e.status = .processed →
    ∃ o, s.orderIn tx e.order = some o ∧ o.status = .processed
  locked : ∀ {id e}, s.rowIn tx id = some e → e.status.isSettled = true →
    LockKey.order e.order ∈ tx.held ∨ s.rows.find? id = some e
  about : ∀ {id e}, s.rows.find? id = some e → ∃ e', s.rowIn tx id = some e' ∧ e'.order = e.order
  live : ∀ {id o}, s.orderIn tx id = some o → o.status = .pending →
    ∃ row e, s.rowIn tx row = some e ∧ e.order = id ∧ e.status.isSettled = false

/-- **What holds in outbox mode**: in every view the orders are covered. -/
def World.Covered (w : World) : Prop :=
  w.Views CoveredFor

/-! ## One view -/

section views
variable {s s' : Store} {ids ids' : IdSupply} {tx tx' : Transaction} {o : Order} {id : OrderId}
  {row : RowId} {e e' : OutboxRow}

theorem CoveredFor.mono (h : CoveredFor s ids tx) (hs : s.SameTables s')
    (hids : ids.next ≤ ids'.next) : CoveredFor s' ids' tx where
  drawn he := (h.drawn ((hs.rowIn tx _).trans he)).mono hids
  known := by
    intro id e he
    rw [← hs.orderIn]
    exact h.known ((hs.rowIn tx _).trans he)
  done := by
    intro id e he hstatus
    rw [← hs.orderIn]
    exact h.done ((hs.rowIn tx _).trans he) hstatus
  locked := by
    intro id e he hsettled
    rw [← hs.rows]
    exact h.locked ((hs.rowIn tx _).trans he) hsettled
  about := by
    intro id e he
    rw [← hs.rows] at he
    rw [← hs.rowIn]
    exact h.about he
  live := by
    intro id o ho hstatus
    obtain ⟨row, e, he, hlive⟩ := h.live ((hs.orderIn tx _).trans ho) hstatus
    exact ⟨row, e, (hs.rowIn tx _).symm.trans he, hlive⟩

theorem coveredFor_ofTables : OfTables CoveredFor :=
  fun h hs hids => h.mono hs hids

/-- Locks and dead letters do not matter. -/
theorem CoveredFor.congr (h : CoveredFor s ids tx) (horders : tx'.orders = tx.orders)
    (hrows : tx'.rows = tx.rows) (hheld : ∀ {k}, k ∈ tx.held → k ∈ tx'.held) :
    CoveredFor s ids tx' := by
  have horder (id : OrderId) : s.orderIn tx' id = s.orderIn tx id :=
    Store.orderIn_congr (congrArg (·.find? id) horders)
  have hrow (id : RowId) : s.rowIn tx' id = s.rowIn tx id :=
    Store.rowIn_congr (congrArg (·.find? id) hrows)
  refine ⟨?_, ?_, ?_, ?_, ?_, ?_⟩
  · intro id e he
    exact h.drawn ((hrow id).symm.trans he)
  · intro id e he
    rw [horder]
    exact h.known ((hrow id).symm.trans he)
  · intro id e he hstatus
    rw [horder]
    exact h.done ((hrow id).symm.trans he) hstatus
  · intro id e he hsettled
    exact (h.locked ((hrow id).symm.trans he) hsettled).imp_left hheld
  · intro id e he
    rw [hrow]
    exact h.about he
  · intro id o ho hstatus
    obtain ⟨row, e, he, hlive⟩ := h.live ((horder id).symm.trans ho) hstatus
    exact ⟨row, e, (hrow row).trans he, hlive⟩

theorem CoveredFor.hold (h : CoveredFor s ids tx) (key : LockKey) :
    CoveredFor s ids (tx.hold key) :=
  h.congr (tx.hold_orders key) (tx.hold_rows key) fun hk => Transaction.mem_held_of_mem hk

theorem CoveredFor.holdAll (h : CoveredFor s ids tx) (keys : List LockKey) :
    CoveredFor s ids (keys.foldl Transaction.hold tx) :=
  h.congr (Store.foldl_hold_orders keys tx) (Store.foldl_hold_rows keys tx) fun hk =>
    Store.mem_held_foldl_hold.mpr (Or.inr hk)

/-- **One order changes**, perhaps with a new row that announces it.  An order
    that comes back needs a row that is still owed work. -/
theorem CoveredFor.changeOrder (h : CoveredFor s ids tx) (id : OrderId)
    (hids : ids.next ≤ ids'.next)
    (horder : s.orderIn tx' id = some o)
    (hview : ∀ o, s.orderIn tx id = some o → o.status ≠ .processed)
    (horders : ∀ i, i ≠ id → s.orderIn tx' i = s.orderIn tx i)
    (hkept : ∀ {row e}, s.rowIn tx row = some e → s.rowIn tx' row = some e)
    (hnew : ∀ {row e}, s.rowIn tx' row = some e → s.rowIn tx row = some e ∨
      (ids'.HasDrawn row.uuid ∧ e.order = id ∧ e.status = .pending))
    (hlive : o.status = .pending →
      ∃ row e, s.rowIn tx' row = some e ∧ e.order = id ∧ e.status.isSettled = false)
    (hheld : ∀ {k}, k ∈ tx.held → k ∈ tx'.held) : CoveredFor s ids' tx' where
  drawn := by
    intro row e he
    obtain he | ⟨hdrawn, -, -⟩ := hnew he
    · exact (h.drawn he).mono hids
    · exact hdrawn
  known := by
    intro row e he
    by_cases hi : e.order = id
    · exact ⟨o, hi ▸ horder⟩
    · obtain he | ⟨-, heq, -⟩ := hnew he
      · rw [horders _ hi]
        exact h.known he
      · exact absurd heq hi
  done := by
    intro row e he hstatus
    obtain he | ⟨-, -, hpending⟩ := hnew he
    · -- The order of this row is processed, so it is not the one that changes.
      obtain ⟨o', ho', hprocessed⟩ := h.done he hstatus
      have hi : e.order ≠ id := by
        rintro rfl
        exact hview o' ho' hprocessed
      rw [horders _ hi]
      exact ⟨o', ho', hprocessed⟩
    · rw [hpending] at hstatus
      cases hstatus
  locked := by
    intro row e he hsettled
    obtain he | ⟨-, -, hpending⟩ := hnew he
    · exact (h.locked he hsettled).imp_left hheld
    · rw [hpending] at hsettled
      cases hsettled
  about := by
    intro row e he
    obtain ⟨e', he', heq⟩ := h.about he
    exact ⟨e', hkept he', heq⟩
  live := by
    intro i o' ho' hpending
    by_cases hi : i = id
    · subst hi
      rw [horder, Option.some.injEq] at ho'
      exact hlive (ho' ▸ hpending)
    · rw [horders i hi] at ho'
      obtain ⟨row, e, he, hrest⟩ := h.live ho' hpending
      exact ⟨row, e, hkept he, hrest⟩

/-- **One row changes**, and stays about the same order.  To settle it takes
    the lock of an order that is not to be processed any more. -/
theorem CoveredFor.changeRow (h : CoveredFor s ids tx) (he : s.rowIn tx row = some e)
    (horder : e'.order = e.order)
    (hdone : e'.status = .processed → ∃ o, s.orderIn tx e.order = some o ∧ o.status = .processed)
    (hsettled : e'.status.isSettled = true → LockKey.order e.order ∈ tx.held ∧
      ∀ o, s.orderIn tx e.order = some o → o.status ≠ .pending) :
    CoveredFor s ids (tx.putRow row e') := by
  have hrow (i : RowId) : s.rowIn (tx.putRow row e') i =
      if row = i then some e' else s.rowIn tx i := Store.rowIn_putRow s tx row e' i
  refine ⟨?_, ?_, ?_, ?_, ?_, ?_⟩
  · intro i e₁ he₁
    rw [hrow] at he₁
    split at he₁
    · next hi => exact hi ▸ h.drawn he
    · exact h.drawn he₁
  · intro i e₁ he₁
    rw [hrow] at he₁
    split at he₁
    · cases he₁
      rw [horder]
      exact h.known he
    · exact h.known he₁
  · intro i e₁ he₁ hstatus
    rw [hrow] at he₁
    split at he₁
    · cases he₁
      rw [horder]
      exact hdone hstatus
    · exact h.done he₁ hstatus
  · intro i e₁ he₁ hstatus
    rw [hrow] at he₁
    split at he₁
    · cases he₁
      rw [horder]
      exact Or.inl (hsettled hstatus).1
    · exact h.locked he₁ hstatus
  · intro i e₁ he₁
    obtain ⟨e₂, he₂, heq⟩ := h.about he₁
    rw [hrow]
    split
    · next hi =>
      rw [← hi, he, Option.some.injEq] at he₂
      exact ⟨e', rfl, by rw [horder, he₂, heq]⟩
    · exact ⟨e₂, he₂, heq⟩
  · intro i o ho hpending
    obtain ⟨i', e₁, he₁, heq, hlive⟩ := h.live ho hpending
    by_cases hi : row = i'
    · -- The row that is changed is the one that the order relies on.
      rw [← hi, he, Option.some.injEq] at he₁
      subst he₁
      cases hstatus : e'.status.isSettled with
      | true => exact absurd hpending ((hsettled hstatus).2 o (heq ▸ ho))
      | false => exact ⟨row, e', by rw [hrow, if_pos rfl], by rw [horder, heq], hstatus⟩
    · exact ⟨i', e₁, by rw [hrow, if_neg hi]; exact he₁, heq, hlive⟩

/-- Rows that are owed work again, or still. -/
theorem CoveredFor.putRows (h : CoveredFor s ids tx) {rows : List OutboxRow}
    {f : OutboxRow → OutboxRow} (hf : ∀ e, (f e).order = e.order)
    (hlive : ∀ e, (f e).status.isSettled = false)
    (hrows : ∀ e ∈ rows, ∃ e', s.rowIn tx e.id = some e' ∧ e'.order = e.order) :
    CoveredFor s ids (tx.putRows (rows.map fun e => (e.id, f e))) := by
  unfold Transaction.putRows Table.putAll
  induction rows generalizing tx with
  | nil => exact h
  | cons e rest ih =>
    obtain ⟨e', he', horder⟩ := hrows e List.mem_cons_self
    have hput : CoveredFor s ids (tx.putRow e.id (f e)) := by
      refine h.changeRow he' ((hf e).trans horder.symm) ?_ ?_
      · intro hstatus
        have hsettled := hlive e
        rw [hstatus] at hsettled
        cases hsettled
      · intro hsettled
        rw [hlive e] at hsettled
        cases hsettled
    -- Should a row come twice, it is still about its order when it comes again.
    refine ih hput fun e₁ he₁ => ?_
    obtain ⟨e₂, he₂, heq⟩ := hrows e₁ (List.mem_cons_of_mem _ he₁)
    rw [Store.rowIn_putRow]
    split
    · next hid =>
      rw [← hid, he', Option.some.injEq] at he₂
      exact ⟨f e, rfl, by rw [hf, ← horder, he₂, heq]⟩
    · exact ⟨e₂, he₂, heq⟩

/-! ## Operations -/

/-- An attempt changes the order and no row; if there is to be another, the
    row that covered the order still does. -/
theorem CoveredFor.attempted (h : CoveredFor s ids tx) {now : Instant} {m : Nat}
    {outcome : Outcome} (ho : s.orderIn tx o.id = some o) (hstatus : o.status = .pending)
    (ha : Attempted o now m (tx.hold (.order o.id)) outcome tx') : CoveredFor s ids tx' := by
  have hview : ∀ o', s.orderIn tx o.id = some o' → o'.status ≠ .processed := by
    intro o' ho'
    rw [ho, Option.some.injEq] at ho'
    simp [← ho', hstatus]
  have hput (step : Transition) :
      CoveredFor s ids ((tx.hold (.order o.id)).putOrder (o.tried now step)) := by
    refine h.changeOrder o.id (o := o.tried now step) (Nat.le_refl _) (by simp) hview ?_ ?_ ?_
      ?_ ?_
    · intro i hi
      simp [Ne.symm hi]
    · intro row e he
      simpa using he
    · intro row e he
      exact Or.inl (by simpa using he)
    · intro _
      obtain ⟨row, e, he, hlive⟩ := h.live ho hstatus
      exact ⟨row, e, by simpa using he, hlive⟩
    · intro k hk
      exact Transaction.mem_held_of_mem hk
  cases ha with
  | processed => exact hput .complete
  | retry reason _ => exact hput (.scheduleRetry reason)
  | failed reason _ =>
    exact (hput (.fail reason)).congr (Transaction.hold_orders _ _) (Transaction.hold_rows _ _)
      fun hk => Transaction.mem_held_of_mem hk

/-- An order that comes up with a new row. -/
theorem CoveredFor.announced {tx₁ : Transaction} {correlation : Option String} {now : Instant}
    (h : CoveredFor s ids tx) (hids : ids.next ≤ ids'.next) (hlasts : ids'.Lasts)
    (hview : ∀ o, s.orderIn tx id = some o → o.status ≠ .processed)
    (hrows : ∀ row, s.rowIn tx₁ row = s.rowIn tx row)
    (horders : ∀ i, i ≠ id → s.orderIn tx₁ i = s.orderIn tx i)
    (horder : s.orderIn tx₁ id = some o) (hheld : ∀ {k}, k ∈ tx.held → k ∈ tx₁.held)
    (hann : Announced .outbox ids ids' id correlation now tx₁ tx') : CoveredFor s ids' tx' := by
  cases hann with
  | later hmode => exact absurd rfl hmode
  | row k _ hle hlt =>
    have hfresh : ¬ ids.HasDrawn (.versionFour k) :=
      IdSupply.not_hasDrawn hle (Nat.lt_of_lt_of_le hlt hlasts)
    refine h.changeOrder id (o := o) hids (by simpa using horder) hview ?_ ?_ ?_ ?_ ?_
    · intro i hi
      simpa using horders i hi
    · intro row e he
      -- The new row hides none of the rows that are there.
      have hne : (⟨.versionFour k⟩ : RowId) ≠ row := by
        rintro rfl
        exact hfresh (h.drawn he)
      rw [Store.rowIn_putRow, if_neg hne, Store.rowIn_hold, hrows]
      exact he
    · intro row e he
      rw [Store.rowIn_putRow, Store.rowIn_hold, hrows] at he
      split at he
      · next hid =>
        cases he
        exact Or.inr ⟨hid ▸ IdSupply.hasDrawn_versionFour hlt, rfl, rfl⟩
      · exact Or.inl he
    · intro _
      exact ⟨⟨.versionFour k⟩, _, by rw [Store.rowIn_putRow, if_pos rfl], rfl, rfl⟩
    · intro k' hk'
      exact Transaction.mem_held_of_mem (hheld hk')

/-- A new order comes up with a new row, if its id is fresh. -/
theorem CoveredFor.accepted {k : Nat} {ids₁ : IdSupply} {correlation : Option String}
    {now : Instant} (h : CoveredFor s ids tx) (hsound : SoundFor s ids tx) (hle : ids.next ≤ k)
    (hlt : k < ids₁.next) (hids : ids₁.next ≤ ids'.next) (hlasts : ids'.Lasts)
    (hann : Announced .outbox ids₁ ids' ⟨.versionFour k⟩ correlation now
      ((tx.hold (.order ⟨.versionFour k⟩)).putOrder (.fresh ⟨.versionFour k⟩ now)) tx') :
    CoveredFor s ids' tx' := by
  have hle₁ : ids.next ≤ ids₁.next := Nat.le_of_lt (Nat.lt_of_le_of_lt hle hlt)
  have hfresh : ¬ ids.HasDrawn (.versionFour k) :=
    IdSupply.not_hasDrawn hle (Nat.lt_of_lt_of_le hlt (Nat.le_trans hids hlasts))
  refine h.announced (o := .fresh ⟨.versionFour k⟩ now) (Nat.le_trans hle₁ hids) hlasts ?_ ?_ ?_ ?_
    ?_ (hann.mono hle₁)
  · intro o ho
    exact absurd (hsound.drawn ho) hfresh
  · intro row
    simp
  · intro i hi
    simp [Ne.symm hi]
  · simp
  · intro key hkey
    exact Transaction.mem_held_of_mem hkey

/-- A readmission that is refused. -/
theorem CoveredFor.withoutLetter (h : CoveredFor s ids tx) (id : OrderId) :
    CoveredFor s ids (tx.withoutLetter id) := by
  refine h.congr ?_ ?_ fun hk => mem_held_withoutLetter_of_mem hk
  · simp [Transaction.withoutLetter, Transaction.putLetter]
  · simp [Transaction.withoutLetter, Transaction.putLetter]

/-- A failed order comes back with a new row. -/
theorem CoveredFor.readmitted {now : Instant} (h : CoveredFor s ids tx)
    (ho : s.orderIn tx o.id = some o) (hstatus : o.status = .failed)
    (hids : ids.next ≤ ids'.next) (hlasts : ids'.Lasts)
    (hann : Announced .outbox ids ids' o.id none now
      ((tx.withoutLetter o.id).putOrder (o.moved now (.reset PublishMode.readmitReason))) tx') :
    CoveredFor s ids' tx' := by
  refine h.announced (o := o.moved now (.reset PublishMode.readmitReason)) hids hlasts ?_ ?_ ?_ ?_
    ?_ hann
  · intro o' ho'
    rw [ho, Option.some.injEq] at ho'
    simp [← ho', hstatus]
  · intro row
    simp
  · intro i hi
    simp [Ne.symm hi]
  · simp
  · intro key hkey
    exact mem_held_withoutLetter_of_mem hkey

/-- **Who does not hold an order's lock** has not settled its rows: what is
    committed as owed work is so in the view. -/
theorem CoveredFor.live_of_committed (h : CoveredFor s ids tx) (he : s.rows.find? row = some e)
    (hlive : e.status.isSettled = false) (hnot : LockKey.order e.order ∉ tx.held) :
    ∃ e', s.rowIn tx row = some e' ∧ e'.order = e.order ∧ e'.status.isSettled = false := by
  obtain ⟨e', he', horder⟩ := h.about he
  refine ⟨e', he', horder, ?_⟩
  cases hsettled : e'.status.isSettled with
  | false => rfl
  | true =>
    -- Settled in the view: under the order's lock, or because it is committed so.
    obtain hheld | hcommitted := h.locked he' hsettled
    · rw [horder] at hheld
      exact absurd hheld hnot
    · rw [he, Option.some.injEq] at hcommitted
      rw [← hcommitted, hlive] at hsettled
      cases hsettled

end views

/-! ## Commits -/

section commits
variable {w w' : World} {t u : TxId} {tx other : Transaction}

/-- What holds of a committed order in both views still holds of the order in
    the other view after a commit, wherever it held before. -/
theorem Store.Orderly.orderIn_absorb_of {s : Store} {Q : Order → Prop} (hs : s.Orderly)
    (id : OrderId) (htx : s.opened.find? t = some tx) (hu : s.opened.find? u = some other)
    (hne : u ≠ t)
    (hkept : ∀ o, s.orders.find? id = some o → Q o →
      (∃ o, s.orderIn tx id = some o ∧ Q o) ∧ ∃ o, s.orderIn other id = some o ∧ Q o)
    (h : (∃ o, s.orderIn tx id = some o ∧ Q o) ∨ ∃ o, s.orderIn other id = some o ∧ Q o) :
    ∃ o, (s.absorb tx).orderIn other id = some o ∧ Q o := by
  obtain ⟨-, hcommitted, -, hview⟩ | ⟨-, hcommitted, hview⟩ := hs.orderIn_absorb htx hu hne id
  · rw [hview]
    obtain ⟨o, ho, hQ⟩ | hother := h
    · exact (hkept o (hcommitted ▸ ho) hQ).2
    · exact hother
  · rw [hview]
    obtain htx | ⟨o, ho, hQ⟩ := h
    · exact htx
    · exact (hkept o (hcommitted ▸ ho) hQ).1

/-- What a transaction that begins after a commit sees. -/
theorem CoveredFor.absorb (h : CoveredFor w.store w.ids tx) (htx : tx.Orderly) :
    CoveredFor (w.store.absorb tx) w.ids {} where
  drawn he := h.drawn ((Store.rowIn_absorb_empty htx _ _).symm.trans he)
  known := by
    intro id e he
    rw [Store.rowIn_absorb_empty htx] at he
    rw [Store.orderIn_absorb_empty htx]
    exact h.known he
  done := by
    intro id e he hstatus
    rw [Store.rowIn_absorb_empty htx] at he
    rw [Store.orderIn_absorb_empty htx]
    exact h.done he hstatus
  locked he _ := Or.inr he
  about he := ⟨_, he, rfl⟩
  live := by
    intro id o ho hstatus
    rw [Store.orderIn_absorb_empty htx] at ho
    obtain ⟨row, e, he, hlive⟩ := h.live ho hstatus
    exact ⟨row, e, (Store.rowIn_absorb_empty htx _ _).trans he, hlive⟩

/-- **The views of the others survive a commit.** -/
theorem CoveredFor.absorb_other (hw : w.store.Orderly) (htx : w.store.opened.find? t = some tx)
    (hu : w.store.opened.find? u = some other) (hne : u ≠ t)
    (h : CoveredFor w.store w.ids tx) (hother : CoveredFor w.store w.ids other)
    (hsound : SoundFor w.store w.ids tx) (hsound' : SoundFor w.store w.ids other) :
    CoveredFor (w.store.absorb tx) w.ids other where
  drawn := by
    intro id e he
    obtain ⟨-, -, -, hview⟩ | ⟨-, -, hview⟩ := hw.rowIn_absorb htx hu hne id
    · exact hother.drawn (hview ▸ he)
    · exact h.drawn (hview ▸ he)
  known := by
    intro id e he
    -- No order is ever taken out.
    have hexists := hw.orderIn_absorb_of (Q := fun _ => True) e.order htx hu hne
      (fun o ho _ => by simpa using ⟨Store.orderIn_of_committed ho tx,
        Store.orderIn_of_committed ho other⟩)
    obtain ⟨-, -, -, hview⟩ | ⟨-, -, hview⟩ := hw.rowIn_absorb htx hu hne id
    · obtain ⟨o, ho⟩ := hother.known (hview ▸ he)
      obtain ⟨o', ho', -⟩ := hexists (Or.inr ⟨o, ho, trivial⟩)
      exact ⟨o', ho'⟩
    · obtain ⟨o, ho⟩ := h.known (hview ▸ he)
      obtain ⟨o', ho', -⟩ := hexists (Or.inl ⟨o, ho, trivial⟩)
      exact ⟨o', ho'⟩
  done := by
    intro id e he hstatus
    -- An order that is committed as processed is so in both views.
    have hprocessed := hw.orderIn_absorb_of (Q := fun o => o.status = .processed) e.order htx
      hu hne fun o ho hstatus =>
        ⟨⟨o, hsound.processed ho hstatus, hstatus⟩, ⟨o, hsound'.processed ho hstatus, hstatus⟩⟩
    obtain ⟨-, -, -, hview⟩ | ⟨-, -, hview⟩ := hw.rowIn_absorb htx hu hne id
    · exact hprocessed (Or.inr (hother.done (hview ▸ he) hstatus))
    · exact hprocessed (Or.inl (h.done (hview ▸ he) hstatus))
  locked := by
    intro id e he hsettled
    obtain ⟨-, -, hcommitted, hview⟩ | ⟨-, -, hview⟩ := hw.rowIn_absorb htx hu hne id
    · rw [hcommitted]
      exact hother.locked (hview ▸ he) hsettled
    · -- What the other one sees of the row is committed now.
      rw [Store.rows_absorb (hw.each htx), ← hview]
      exact Or.inr he
  about := by
    intro id e he
    obtain ⟨-, -, hcommitted, hview⟩ | ⟨-, -, hview⟩ := hw.rowIn_absorb htx hu hne id
    · rw [hview]
      exact hother.about (hcommitted ▸ he)
    · rw [Store.rows_absorb (hw.each htx)] at he
      exact ⟨e, hview.trans he, rfl⟩
  live := by
    intro id o ho hpending
    obtain ⟨hheld, -, -, horder⟩ | ⟨hnot, -, horder⟩ := hw.orderIn_absorb htx hu hne id
    · obtain ⟨row, e, he, rfl, hlive⟩ := hother.live (horder ▸ ho) hpending
      obtain ⟨-, -, -, hview⟩ | ⟨-, hcommitted, hview⟩ := hw.rowIn_absorb htx hu hne row
      · exact ⟨row, e, hview.trans he, rfl, hlive⟩
      · -- The other one holds the order's lock, so this one has not settled the row.
        have hnot : LockKey.order e.order ∉ tx.held := hw.not_held htx hu hne hheld
        obtain ⟨e', he', hlive'⟩ := h.live_of_committed (hcommitted ▸ he) hlive hnot
        exact ⟨row, e', hview.trans he', hlive'⟩
    · obtain ⟨row, e, he, rfl, hlive⟩ := h.live (horder ▸ ho) hpending
      obtain ⟨-, hcommitted, -, hview⟩ | ⟨-, -, hview⟩ := hw.rowIn_absorb htx hu hne row
      · -- The other one has the row but not its order, so it has not settled the row either.
        obtain ⟨e', he', hlive'⟩ := hother.live_of_committed (hcommitted ▸ he) hlive hnot
        exact ⟨row, e', hview.trans he', hlive'⟩
      · exact ⟨row, e, hview.trans he, rfl, hlive⟩

theorem World.Covered.commit (hw : w.Covered) (hsound : w.Sound) (horderly : w.store.Orderly)
    (htx : w.store.opened.find? t = some tx) :
    World.Covered { w with store := (w.store.absorb tx).close t } := by
  have hcurrent := Store.current_opened htx
  refine Views.commit coveredFor_ofTables ((hw _ hcurrent).absorb (horderly.each htx))
    fun hu hut => ?_
  have hcurrent' := Store.current_opened hu
  exact CoveredFor.absorb_other horderly htx hu hut (hw _ hcurrent) (hw _ hcurrent')
    (hsound _ hcurrent) (hsound _ hcurrent')

theorem covered_empty (h : w.store = {}) : w.Covered := by
  intro tx hc
  rw [h] at hc ⊢
  obtain rfl | ⟨t, ht⟩ := hc
  · exact ⟨by rintro _ _ ⟨⟩, by rintro _ _ ⟨⟩, by rintro _ _ ⟨⟩, by rintro _ _ ⟨⟩,
      by rintro _ _ ⟨⟩, by rintro _ _ ⟨⟩⟩
  · cases ht

end commits

end OrderFlow
