import OrderFlow.Proofs.Announcement
import OrderFlow.Proofs.Run.Turn
import OrderFlow.Proofs.Steady

/-! # On the way through the transport

    In transport mode, and in outbox mode where rows are only forwarded, the
    obligation to process an order is handed over: from the order to its row,
    from the row to a message, and a message is acknowledged only when the
    order is done.  Each hand-over can fail half way.

    `World.Transit` says where the obligation is.  What a turn does to orders,
    rows and accepted messages (`Carries`) keeps that, and together with what
    holds of the mail it follows that no order is stranded. -/

namespace OrderFlow

open World

/-! ## Where the obligation is -/

/-- A message that names the order was accepted. -/
def Mail.Told (mail : Mail) (id : OrderId) : Prop :=
  ∃ x ∈ mail.accepted, Payload.Announces x.2.body id

/-- Rows that cannot be sent may be given up on. -/
def Deed.IsLimited : Deed → Prop
  | .forward r => r.maxAttempts.isSome
  | _ => False

/-- **Where the obligation to process an order is**, in a run with such deeds so
    far: it has a row, or a message about it was accepted, or nobody could be
    told of it. -/
structure World.Transit (w : World) (claimed : List OutboxRow) (deeds : List Deed)
    (mail : Mail) : Prop where
  rowsDrawn : ∀ {row e}, w.store.rows.find? row = some e → w.ids.HasDrawn row.uuid
  announces : ∀ {row e}, w.store.rows.find? row = some e → e.Announces
  sent : ∀ {row e}, w.store.rows.find? row = some e → e.status = .processed → mail.Told e.order
  limited : ∀ {row e}, w.store.rows.find? row = some e → e.status = .failed →
    ∃ d ∈ deeds, d.IsLimited
  held : ∀ e ∈ claimed, e.Announces ∧ ∃ e', w.store.rows.find? e.id = some e' ∧ e'.order = e.order
  raised : ∀ d ∈ deeds, ∀ id, d.raised = some id → (w.store.orders.find? id).isSome
  known : ∀ id, (w.store.orders.find? id).isSome →
    (∃ row e, w.store.rows.find? row = some e ∧ e.order = id) ∨ mail.Told id ∨
      (∃ d ∈ deeds, d.raised = some id) ∧ ∀ d ∈ deeds, d.raised = some id → d.IsUntold

/-- **What a turn does** to orders, to rows and to the obligations, where `mail`
    is the mail after it.  What goes wrong does so only in an outage. -/
structure Carries (w : World) (claimed : List OutboxRow) (d : Deed) (mail : Mail) (w' : World)
    (claimed' : List OutboxRow) : Prop where
  orders : ∀ id, (w'.store.orders.find? id).isSome ↔
    (w.store.orders.find? id).isSome ∨ d.raised = some id
  rows : ∀ row, w'.store.rows.find? row = w.store.rows.find? row ∨
    (∃ e e', w.store.rows.find? row = some e ∧ w'.store.rows.find? row = some e' ∧
      e'.order = e.order ∧ e'.payload = e.payload ∧
      (e'.status = .processed → mail.Told e.order) ∧
      (e'.status = .failed → d.IsLimited ∧ ¬ w.Steady)) ∨
    w.store.rows.find? row = none ∧ ∃ e', w'.store.rows.find? row = some e' ∧ e'.Announces ∧
      e'.status = .pending ∧ w'.ids.HasDrawn row.uuid ∧ d.raised = some e'.order ∧
      d.Announces (· = .outbox)
  raised : ∀ id, d.raised = some id →
    (∃ row e, w'.store.rows.find? row = some e ∧ e.order = id) ∨ mail.Told id ∨
      d.IsUntold ∧ ¬ w.Steady
  held : ∀ e ∈ claimed', e ∈ claimed ∨ w.store.rows.find? e.id = some e

section carries
variable {w w' : World} {claimed claimed' : List OutboxRow} {d : Deed} {deeds : List Deed}
  {mail mail' : Mail}

theorem Mail.Told.mono {id : OrderId} (h : mail.Told id)
    (hgrows : mail.accepted ⊆ mail'.accepted) : mail'.Told id := by
  obtain ⟨x, hx, hannounces⟩ := h
  exact ⟨x, hgrows hx, hannounces⟩

/-- No row goes away, and each stays about its order. -/
theorem Carries.row_stays (h : Carries w claimed d mail w' claimed') {row : RowId} {e : OutboxRow}
    (he : w.store.rows.find? row = some e) :
    ∃ e', w'.store.rows.find? row = some e' ∧ e'.order = e.order := by
  rcases h.rows row with hsame | ⟨e₁, e', he₁, he', horder, -⟩ | ⟨hnone, -⟩
  · exact ⟨e, hsame.trans he, rfl⟩
  · rw [he, Option.some.injEq] at he₁
    exact ⟨e', he', he₁ ▸ horder⟩
  · rw [he] at hnone
    cases hnone

/-- What holds of rows holds after the turn. -/
theorem Carries.row_after (h : Carries w claimed d mail' w' claimed')
    (hw : w.Transit claimed deeds mail) (hgrows : mail.accepted ⊆ mail'.accepted)
    (hids : w.ids.next ≤ w'.ids.next) {row : RowId} {e' : OutboxRow}
    (he' : w'.store.rows.find? row = some e') :
    w'.ids.HasDrawn row.uuid ∧ e'.Announces ∧ (e'.status = .processed → mail'.Told e'.order) ∧
      (e'.status = .failed → ∃ d' ∈ deeds ++ [d], d'.IsLimited) := by
  rcases h.rows row with hsame | ⟨e, e₁, he, he₁, horder, hpayload, hprocessed, hfailed⟩ |
    ⟨-, e₁, he₁, hannounces, hpending, hdrawn, -, -⟩
  · rw [hsame] at he'
    refine ⟨(hw.rowsDrawn he').mono hids, hw.announces he',
      fun hstatus => (hw.sent he' hstatus).mono hgrows, fun hstatus => ?_⟩
    obtain ⟨d', hd', hlimited⟩ := hw.limited he' hstatus
    exact ⟨d', List.mem_append_left _ hd', hlimited⟩
  · rw [he', Option.some.injEq] at he₁
    subst he₁
    obtain ⟨correlation, hannounces⟩ := hw.announces he
    refine ⟨(hw.rowsDrawn he).mono hids, ⟨correlation, by rw [hpayload, horder, hannounces]⟩,
      fun hstatus => horder ▸ hprocessed hstatus, fun hstatus => ?_⟩
    exact ⟨d, by simp, (hfailed hstatus).1⟩
  · rw [he', Option.some.injEq] at he₁
    subst he₁
    exact ⟨hdrawn, hannounces, by simp [hpending], by simp [hpending]⟩

/-- **Every order's obligation is somewhere** after the turn. -/
theorem Carries.known_after (h : Carries w claimed d mail' w' claimed')
    (hw : w.Transit claimed deeds mail) (hgrows : mail.accepted ⊆ mail'.accepted) {id : OrderId}
    (hid : (w'.store.orders.find? id).isSome) :
    (∃ row e, w'.store.rows.find? row = some e ∧ e.order = id) ∨ mail'.Told id ∨
      (∃ d' ∈ deeds ++ [d], d'.raised = some id) ∧
        ∀ d' ∈ deeds ++ [d], d'.raised = some id → d'.IsUntold := by
  -- If nobody could be told before, it is this turn's announcement that counts.
  have hnow (hbefore : ∀ d' ∈ deeds, d'.raised = some id → d'.IsUntold)
      (hraised : d.raised = some id) :
      (∃ row e, w'.store.rows.find? row = some e ∧ e.order = id) ∨ mail'.Told id ∨
        (∃ d' ∈ deeds ++ [d], d'.raised = some id) ∧
          ∀ d' ∈ deeds ++ [d], d'.raised = some id → d'.IsUntold := by
    rcases h.raised id hraised with hrow | htold | ⟨huntold, -⟩
    · exact Or.inl hrow
    · exact Or.inr (Or.inl htold)
    · refine Or.inr (Or.inr ⟨⟨d, by simp, hraised⟩, List.forall_mem_append.mpr ⟨hbefore, ?_⟩⟩)
      simpa using fun _ => huntold
  by_cases hbefore : (w.store.orders.find? id).isSome
  · rcases hw.known id hbefore with ⟨row, e, he, horder⟩ | htold | ⟨⟨d', hd', hraised'⟩, huntold⟩
    · obtain ⟨e', he', horder'⟩ := h.row_stays he
      exact Or.inl ⟨row, e', he', horder'.trans horder⟩
    · exact Or.inr (Or.inl (htold.mono hgrows))
    · by_cases hraised : d.raised = some id
      · exact hnow huntold hraised
      · refine Or.inr (Or.inr ⟨⟨d', List.mem_append_left _ hd', hraised'⟩, ?_⟩)
        exact List.forall_mem_append.mpr ⟨huntold, by simp [hraised]⟩
  · -- The order is new, so no turn before this one has announced it.
    exact hnow (fun d' hd' hraised' => absurd (hw.raised d' hd' id hraised') hbefore)
      (((h.orders id).mp hid).resolve_left hbefore)

/-- **One turn** leaves every obligation somewhere. -/
theorem Carries.transit (h : Carries w claimed d mail' w' claimed')
    (hw : w.Transit claimed deeds mail) (hgrows : mail.accepted ⊆ mail'.accepted)
    (hids : w.ids.next ≤ w'.ids.next) : w'.Transit claimed' (deeds ++ [d]) mail' where
  rowsDrawn he := (h.row_after hw hgrows hids he).1
  announces he := (h.row_after hw hgrows hids he).2.1
  sent he := (h.row_after hw hgrows hids he).2.2.1
  limited he := (h.row_after hw hgrows hids he).2.2.2
  held e he := by
    rcases h.held e he with hold | hnew
    · obtain ⟨hannounces, e₁, he₁, horder⟩ := hw.held e hold
      obtain ⟨e', he', horder'⟩ := h.row_stays he₁
      exact ⟨hannounces, e', he', horder'.trans horder⟩
    · exact ⟨hw.announces hnew, h.row_stays hnew⟩
  raised := by
    refine List.forall_mem_append.mpr ⟨fun d' hd' id hraised => ?_, ?_⟩
    · exact (h.orders id).mpr (Or.inl (hw.raised d' hd' id hraised))
    · simpa using fun id hraised => (h.orders id).mpr (Or.inr hraised)
  known id hid := h.known_after hw hgrows hid

end carries

/-! ## Every turn carries on -/

/-- **A deed on the transport routes**: no order is announced in memory, and
    rows are only forwarded. -/
def Deed.OnTransport : Deed → Prop
  | .accept mode _ | Deed.readmit mode _ _ => mode ≠ .inMemory
  | .settle _ | .round _ => False
  | _ => True

/-- Rows stay as they are, and orders neither come nor go. -/
structure World.KeepsRows (w w' : World) : Prop where
  rows : ∀ row, w'.store.rows.find? row = w.store.rows.find? row
  orders : ∀ id, (w'.store.orders.find? id).isSome = (w.store.orders.find? id).isSome

section turns
variable {w w' w₁ : World} {claimed claimed' : List OutboxRow} {d : Deed} {deeds : List Deed}
  {mail mail' : Mail}

theorem keepsRows_chains : Attempt.Chains KeepsRows where
  refl _ := ⟨fun _ => rfl, fun _ => rfl⟩
  trans h₁ h₂ := ⟨fun row => (h₂.rows row).trans (h₁.rows row),
    fun id => (h₂.orders id).trans (h₁.orders id)⟩

theorem keepsRows_of_sameTables (h : w.store.SameTables w'.store) : KeepsRows w w' where
  rows row := by rw [h.rows]
  orders id := by rw [h.orders]

theorem World.Wrote.keepsRows {called : List OrderId} (h : Wrote w called {} w') :
    KeepsRows w w' := by
  obtain ⟨horders, hrows, -⟩ := h.unchanged
  exact ⟨hrows, fun id => by rw [horders]⟩

/-- An attempt on an order. -/
theorem process_keepsRows {id : OrderId} {m : Nat} {r : Except OperationError Outcome}
    (hw : w.store.Orderly) (h : process id m w = some (r, w')) : KeepsRows w w' := by
  cases process_ended hw h with
  | failed _ hwrote => exact hwrote.keepsRows
  | refused hwrote _ => exact hwrote.keepsRows
  | committed htries hwrote =>
    exact ⟨fun row => (hwrote.rows row).trans (htries.rowIn row),
      fun i => by rw [hwrote.orders, htries.orders_isSome]⟩

/-- A poll of the transport. -/
theorem MessageConsumer.keepsRows {c : MessageConsumer} {r : Except OperationError Reception}
    (hw : w.store.Orderly) (h : c.poll w = some (r, w')) : KeepsRows w w' := by
  have hreceived {rd : Except OperationError (Option Delivery)} {w₁ : World}
      (hreceive : Call.receive c.waitMs w = some (rd, w₁)) :
      KeepsRows w w₁ ∧ w₁.store.Orderly := by
    have helse := Call.moves_receive _ _ _ _ hreceive
    exact ⟨keepsRows_of_sameTables helse.sameTables, helse.orderly hw⟩
  cases MessageConsumer.poll_polls h with
  | refused hreceive => exact (hreceived hreceive).1
  | idle hreceive => exact (hreceived hreceive).1
  | malformed hreceive _ => exact (hreceived hreceive).1
  | attempted hreceive _ hprocess _ =>
    obtain ⟨hfirst, horderly⟩ := hreceived hreceive
    exact keepsRows_chains.trans hfirst (process_keepsRows horderly hprocess)
  | acknowledged hreceive _ hprocess hack =>
    obtain ⟨hfirst, horderly⟩ := hreceived hreceive
    have hsecond := keepsRows_chains.trans hfirst (process_keepsRows horderly hprocess)
    exact keepsRows_chains.trans hsecond
      (keepsRows_of_sameTables (Call.moves_acknowledge _ _ _ _ hack).sameTables)

/-- A turn that writes no order, and no row that it settles, leaves every
    obligation where it was. -/
theorem Carries.of_unsettled {P : OutboxRow → OutboxRow → Prop}
    (horders : ∀ i, (w'.store.orders.find? i).isSome = (w.store.orders.find? i).isSome)
    (hrows : ∀ i, w'.store.rows.find? i = w.store.rows.find? i ∨
      ∃ e e', w.store.rows.find? i = some e ∧ w'.store.rows.find? i = some e' ∧ P e e')
    (hP : ∀ e e', P e e' →
      e'.order = e.order ∧ e'.payload = e.payload ∧ e'.status.isSettled = false)
    (hraised : d.raised = none)
    (hheld : ∀ e ∈ claimed', e ∈ claimed ∨ w.store.rows.find? e.id = some e) :
    Carries w claimed d mail w' claimed' where
  orders id := by simp [horders, hraised]
  rows row := by
    rcases hrows row with hsame | ⟨e, e', he, he', hwritten⟩
    · exact Or.inl hsame
    · obtain ⟨horder, hpayload, hunsettled⟩ := hP e e' hwritten
      refine Or.inr (Or.inl ⟨e, e', he, he', horder, hpayload, fun hs => ?_, fun hs => ?_⟩)
      · rw [hs] at hunsettled
        cases hunsettled
      · rw [hs] at hunsettled
        cases hunsettled
  raised id hid := by
    rw [hraised] at hid
    cases hid
  held := hheld

/-- A turn that writes no order and no row carries on. -/
theorem Carries.of_kept (h : KeepsRows w w') (hraised : d.raised = none)
    (hheld : ∀ e ∈ claimed', e ∈ claimed) : Carries w claimed d mail w' claimed' :=
  .of_unsettled (P := fun _ _ => False) h.orders (fun i => Or.inl (h.rows i))
    (fun _ _ hfalse => hfalse.elim) hraised fun e he => Or.inl (hheld e he)

/-- What is in the transport's queue was accepted. -/
theorem Mail.Traced.told {m : HeldMessage} {id : OrderId} (h : mail.Traced w.transport w.ids)
    (hm : m ∈ w.transport.messages) (hannounces : Payload.Announces m.message.body id) :
    mail.Told id :=
  ⟨m.parcel, h.whole.mem_iff.mpr (by simp [List.mem_map_of_mem hm]), hannounces⟩

/-- A message that was accepted is in the queue. -/
theorem Call.sent_queued {m : Message} {id : Uuid}
    (h : Call.trySend m w = some (.ok (.ok id), w')) :
    ∃ held ∈ w'.transport.messages, held.message = m := by
  rw [Call.trySend_messages h]
  exact ⟨_, List.mem_append_right _ List.mem_cons_self, rfl⟩

/-- **An order comes up**: its row is there, or a message about it was accepted,
    or nobody could be told. -/
theorem World.Transit.raise {mode : PublishMode} {o : Order} {correlation : Option String}
    {tx : Transaction} {r : Except OperationError Unit} (hw : w.Transit claimed deeds mail)
    (hmode : mode ≠ .inMemory) (hwrote : Wrote w [] tx w₁)
    (hraises : Raises w mode o correlation tx w₁.ids)
    (hemits : Emits mode o.id correlation w₁ r w') (hids : w'.ids.Lasts)
    (ht : mail'.Traced w'.transport w'.ids) (hraised : d.raised = some o.id)
    (hmodes : d.Announces (· = mode)) (huntold : r ≠ .ok () → d.IsUntold) :
    Carries w claimed d mail' w' claimed := by
  have hsame : w₁.store.SameTables w'.store ∧ w₁.ids.next ≤ w'.ids.next := by
    cases hemits with
    | noted => exact ⟨⟨rfl, rfl, rfl⟩, Nat.le_refl _⟩
    | queued hqueue => exact absurd hqueue hmode
    | sent _ h =>
      have helse := Call.moves_trySend _ _ _ _ h
      exact ⟨helse.sameTables, helse.ids⟩
    | untold _ h =>
      have helse := Call.moves_trySend _ _ _ _ h
      exact ⟨helse.sameTables, helse.ids⟩
  obtain ⟨htables, hle⟩ := hsame
  have horders (i : OrderId) : w'.store.orders.find? i =
      if o.id = i then some o else w.store.orders.find? i := by
    rw [← htables.orders, hwrote.orders, hraises.order]
  have hrows (i : RowId) : w'.store.rows.find? i = w.store.rowIn tx i := by
    rw [← htables.rows, hwrote.rows]
  refine ⟨fun i => ?_, fun row => ?_, fun id hid => ?_, fun e he => Or.inl he⟩
  · rw [horders, hraised, Option.some.injEq]
    split
    · next hi => simp [hi]
    · next hi => simp [hi]
  · by_cases houtbox : mode = .outbox
    · obtain ⟨k, now, hlow, hhigh, hrow⟩ := hraises.row houtbox
      rw [hrows, hrow]
      split
      · next hk =>
        subst hk
        have hlasts : k < 2 ^ 122 :=
          Nat.lt_of_lt_of_le hhigh (Nat.le_trans hle hids)
        refine Or.inr (Or.inr ⟨?_, _, rfl, OutboxRow.announces_announcing _ _ _ _, rfl, ?_,
          hraised, houtbox ▸ hmodes⟩)
        · -- The row's id was drawn in this turn, so there was no such row.
          refine Option.eq_none_iff_forall_ne_some.mpr fun e he => ?_
          exact IdSupply.not_hasDrawn hlow hlasts (hw.rowsDrawn he)
        · exact IdSupply.hasDrawn_versionFour (Nat.lt_of_lt_of_le hhigh hle)
      · exact Or.inl rfl
    · exact Or.inl ((hrows row).trans (hraises.noRow houtbox row))
  · rw [hraised, Option.some.injEq] at hid
    subst hid
    cases hemits with
    | noted houtbox =>
      obtain ⟨k, now, -, -, hrow⟩ := hraises.row houtbox
      exact Or.inl ⟨⟨.versionFour k⟩, _, by rw [hrows, hrow, if_pos rfl], rfl⟩
    | queued hqueue => exact absurd hqueue hmode
    | sent _ h =>
      obtain ⟨m, hm, hmessage⟩ := Call.sent_queued h
      refine Or.inr (Or.inl (ht.told hm ?_))
      rw [hmessage]
      exact Signal.announces_toMessage ⟨o.id, correlation⟩
    | untold _ h =>
      refine Or.inr (Or.inr ⟨huntold (by simp), fun hsteady => ?_⟩)
      obtain ⟨hr, -⟩ := Call.trySend_steady (hwrote.around.steady hsteady) h
      cases hr

/-- **A claimed row is sent and settled.** -/
theorem World.Transit.forward {f : Forwarder} {e : OutboxRow} {rest left : List OutboxRow}
    {now : Instant} {sent : Except TransportError Uuid} {settled : Except OperationError Unit}
    (hw : w.Transit (e :: rest) deeds mail) (horderly : w.store.Orderly)
    (ht : mail'.Traced w'.transport w'.ids) (hleft : left = rest ∨ left = [])
    (hsend : Call.trySend e.toMessage w = some (.ok sent, w₁))
    (h : (Call.transact fun t => Call.inStore ((f.verdict e now sent).settle t e.id now)) w₁ =
      some (settled, w')) : Carries w (e :: rest) (.forward f) mail' w' left := by
  obtain ⟨hannounces, row₀, hrow₀, horder₀⟩ := hw.held e List.mem_cons_self
  have helse := Call.moves_trySend _ _ _ _ hsend
  have hended := ForwardingVerdict.settle_ended (helse.orderly horderly) h
  obtain ⟨horders, hrows⟩ := hended.rewrites
  refine ⟨fun i => ?_, fun row => ?_, nofun, fun e' he' => Or.inl ?_⟩
  · rw [horders, ← helse.sameTables.orders]
    simp [Deed.raised]
  · rcases hrows row with hsame | ⟨e₁, e₂, he₁, he₂, hid, rfl⟩
    · exact Or.inl (by rw [hsame, ← helse.sameTables.rows])
    · -- The row that is settled is the claimed one, and so it is about the same order.
      rw [← helse.sameTables.rows] at he₁
      have horder₁ : e₁.order = e.order := by
        rw [← horderly.rows.own he₁, hid, hrow₀, Option.some.injEq] at he₁
        rw [← he₁, horder₀]
      refine Or.inr (Or.inl ⟨e₁, _, he₁, he₂, by simp, by simp, fun hstatus => ?_,
        fun hstatus => ?_⟩)
      · -- It is done because its message was accepted, which is in the queue still.
        obtain ⟨id, rfl⟩ := (f.change_processed_iff e e₁ now sent).mp hstatus
        obtain ⟨m, hm, hmessage⟩ := Call.sent_queued hsend
        rw [← hended.around.messages] at hm
        refine ht.told hm ?_
        rw [hmessage, horder₁]
        exact hannounces.toMessage
      · obtain ⟨hlimited, cause, rfl⟩ := Forwarder.of_change_failed hstatus
        refine ⟨hlimited, fun hsteady => ?_⟩
        obtain ⟨hr, -⟩ := Call.trySend_steady hsteady hsend
        cases hr
  · rcases hleft with rfl | rfl
    · exact List.mem_cons_of_mem _ he'
    · cases he'

/-- **Every turn on the transport routes carries on.** -/
theorem Turn.carries (h : Turn (w, claimed) d (w', claimed')) (hd : d.OnTransport)
    (hw : w.Transit claimed deeds mail) (horderly : w.store.Orderly) (hids : w'.ids.Lasts)
    (ht : mail'.Traced w'.transport w'.ids) : Carries w claimed d mail' w' claimed' := by
  cases h with
  | accept h =>
    rcases PublishMode.accept_ends horderly h with
      ⟨rfl, -, called, hwrote⟩ | ⟨id, now, tx, w₁, r₁, -, -, hwrote, hraises, -, hemits, rfl⟩
    · exact .of_kept hwrote.keepsRows rfl fun _ he => he
    · refine hw.raise hd hwrote hraises hemits hids ht ?_ rfl ?_
      · cases hemits <;> rfl
      · intro hr
        obtain ⟨cause, rfl⟩ := hemits.unannounced hr
        trivial
  | readmit h =>
    rcases PublishMode.readmit_ends horderly h with
      ⟨e, called, rfl, hknown, hwrote⟩ | ⟨o, now, tx, w₁, -, rfl, -, hwrote, hraises, hemits⟩
    · exact .of_kept hwrote.keepsRows (Deed.raised_of_known hknown) fun _ he => he
    · refine hw.raise hd hwrote hraises hemits hids ht ?_ rfl ?_
      · cases hemits <;> rfl
      · intro hr
        obtain ⟨cause, rfl⟩ := hemits.unannounced hr
        trivial
  | process h => exact .of_kept (process_keepsRows horderly h) rfl fun _ he => he
  | consume h => exact .of_kept (MessageConsumer.keepsRows horderly h) rfl fun _ he => he
  | wait clock => exact .of_kept ⟨fun _ => rfl, fun _ => rfl⟩ rfl fun _ he => he
  | others _ _ _ => exact .of_kept ⟨fun _ => rfl, fun _ => rfl⟩ rfl fun _ he => he
  | noLease h =>
    obtain ⟨called, hwrote⟩ := (Claimant.lease_ended horderly h).of_error
    exact .of_kept hwrote.keepsRows rfl fun _ he => he
  | release h =>
    obtain ⟨horders, hrows⟩ := (Claimant.release_ended horderly h).rewrites
    refine .of_unsettled (fun i => by rw [horders]) hrows (fun e e' hends => ?_) rfl
      fun e he => ?_
    · obtain ⟨-, rfl⟩ := hends
      exact ⟨rfl, rfl, rfl⟩
    · cases he
  | lease h =>
    cases Claimant.lease_ended horderly h with
    | committed hQ hwrote =>
      have hleases := hQ.2 claimed' rfl
      obtain ⟨horders, hrows⟩ := hleases.rewrites.tables hwrote
      refine .of_unsettled (fun i => by rw [horders]) hrows (fun e e' hleased => ?_) rfl
        fun e he => Or.inr (hleases.seen e he).1
      obtain ⟨-, rfl⟩ := hleased
      exact ⟨rfl, rfl, rfl⟩
  | forward hleft hsend h => exact hw.forward horderly ht hleft hsend h
  | settle | giveUp | round => exact hd.elim

end turns

/-! ## The property -/

section property
variable {w₀ w : World} {claimed : List OutboxRow} {deeds : List Deed}

/-- There is no order and no row. -/
theorem transit_empty (h : w.store = {}) : w.Transit [] [] {} := by
  have horders (i : OrderId) : w.store.orders.find? i = none := by
    rw [h]
    rfl
  have hrows (i : RowId) : w.store.rows.find? i = none := by
    rw [h]
    rfl
  refine ⟨?_, ?_, ?_, ?_, ?_, ?_, ?_⟩ <;> simp [horders, hrows]

/-- **Along a run**: there is a record of the mail with which every obligation is
    somewhere. -/
theorem Turns.transit (hstore : w₀.store = {}) (hmessages : w₀.transport.messages = [])
    (hletters : w₀.transport.deadLetters = []) (h : Turns (w₀, []) deeds (w, claimed))
    (hdeeds : ∀ d ∈ deeds, d.OnTransport) (hids : w.ids.Lasts) :
    ∃ j mail, Mailed w j mail ∧ w.Transit claimed deeds mail := by
  refine h.keep (P := fun c deeds => ∃ j mail, Mailed c.1 j mail ∧ c.1.Transit c.2 deeds mail)
    hdeeds ?_ (hstore ▸ Store.orderly_empty) hids
    ⟨{}, {}, mailed_empty hstore hmessages hletters, transit_empty hstore⟩
  rintro c₁ c₂ deeds d horderly hids hd hturn ⟨j, mail, hmailed, htransit⟩
  obtain ⟨j', mail', hsteps⟩ := hturn.posts j mail
  have hmailed' := hmailed.steps hsteps
  obtain ⟨htraced, -⟩ := hmailed'.kept hids
  exact ⟨j', mail', hmailed', (hturn.carries hd htransit horderly hids htraced).transit htransit
    hsteps.grows.1 (hturn.posts.ids_le horderly)⟩

/-- A message that was accepted is still with the transport, or its order is done. -/
theorem Mail.Told.somewhere {j : Journal} {mail : Mail} {id : OrderId} {o : Order}
    (h : mail.Told id) (hmailed : Mailed w j mail) (hids : w.ids.Lasts)
    (ho : w.store.orders.find? id = some o) (hstatus : o.status ≠ .processed) :
    ∃ m ∈ w.transport.messages ++ w.transport.deadLetters,
      Payload.Announces m.message.body id := by
  obtain ⟨htraced, hbacked⟩ := hmailed.kept hids
  obtain ⟨x, hx, hannounces⟩ := h
  rcases List.mem_append.mp (htraced.whole.mem_iff.mp hx) with hkept | hdeleted
  · rw [← List.map_append] at hkept
    obtain ⟨m, hm, rfl⟩ := List.mem_map.mp hkept
    exact ⟨m, hm, hannounces⟩
  · obtain ⟨p, hp, hdone⟩ := hbacked.deleted x hdeleted
    obtain ⟨o', ho', hprocessed⟩ := hbacked.done p.order hdone
    rw [hannounces.order_eq hp, ho, Option.some.injEq] at ho'
    exact absurd (ho' ▸ hprocessed) hstatus

/-- **No order is stranded on the transport routes.**  At any time in any run
    from an empty store and an empty transport, in which orders are accepted
    and readmitted in transport or outbox mode, rows are forwarded, messages
    are consumed and attempts are made by hand, with outages at any point: for
    every order that is to be processed

    * there is a row about it that is still owed work;
    * or there is one that was given up on, by a forwarder that has a limit;
    * or a message that names it is in the queue or with the dead letters;
    * or every time that it was accepted or readmitted, the answer was that it
      could not be announced.

    The actions of such a pipeline unfold into turns of such a run. -/
theorem no_order_lost_in_transit (hstore : w₀.store = {})
    (hmessages : w₀.transport.messages = []) (hletters : w₀.transport.deadLetters = [])
    (h : Turns (w₀, []) deeds (w, claimed)) (hdeeds : ∀ d ∈ deeds, d.OnTransport)
    (hids : w.ids.Lasts) :
    (∀ id o, w.store.orders.find? id = some o → o.status = .pending →
      (∃ e ∈ w.store.listRows, e.order = id ∧ (e.status = .pending ∨ e.status = .processing)) ∨
      (∃ e ∈ w.store.listRows, e.order = id ∧ e.status = .failed ∧
        ∃ r, Deed.forward r ∈ deeds ∧ r.maxAttempts.isSome) ∨
      (∃ m ∈ w.transport.messages ++ w.transport.deadLetters,
        Payload.Announces m.message.body id) ∨
      ((∃ d ∈ deeds, d.raised = some id) ∧ ∀ d ∈ deeds, d.raised = some id → d.IsUntold)) ∧
    ∀ (a : Action) r w', a.Alone w → (∀ d, a.MayDo d → d.OnTransport) →
      a.call w = some (r, w') → Unfolds Deed.OnTransport w w' := by
  refine ⟨?_, fun a r w' halone hkinds hcall => Action.unfolds halone hkinds hcall⟩
  obtain ⟨j, mail, hmailed, htransit⟩ := h.transit hstore hmessages hletters hdeeds hids
  have horderly : w.store.Orderly := h.orderly (hstore ▸ Store.orderly_empty)
  intro id o ho hpending
  have hthere (htold : mail.Told id) : ∃ m ∈ w.transport.messages ++ w.transport.deadLetters,
      Payload.Announces m.message.body id :=
    htold.somewhere hmailed hids ho (by simp [hpending])
  rcases htransit.known id (by rw [ho]; rfl) with ⟨row, e, he, horder⟩ | htold | huntold
  · obtain rfl := horderly.rows.own he
    have hlisted := horderly.mem_listRows_iff.mpr he
    cases hstatus : e.status with
    | pending => exact Or.inl ⟨e, hlisted, horder, Or.inl hstatus⟩
    | processing => exact Or.inl ⟨e, hlisted, horder, Or.inr hstatus⟩
    | processed => exact Or.inr (Or.inr (Or.inl (hthere (horder ▸ htransit.sent he hstatus))))
    | failed =>
      obtain ⟨d, hd, hlimited⟩ := htransit.limited he hstatus
      cases d with
      | forward r => exact Or.inr (Or.inl ⟨e, hlisted, horder, hstatus, r, hd, hlimited⟩)
      | _ => exact hlimited.elim
  · exact Or.inr (Or.inr (Or.inl (hthere htold)))
  · exact Or.inr (Or.inr (Or.inr huntold))

end property

/-- The store goes down between an accepted send and the settlement of the row. -/
theorem no_order_lost_in_transit_half_done :
    ∃ w₀ w deeds, w₀.store = {} ∧ w₀.transport = {} ∧ Turns (w₀, []) deeds (w, []) ∧
      (∀ d ∈ deeds, d.OnTransport) ∧ w.ids.Lasts ∧ w.store.available = false ∧
      ∃ o, w.store.orders.find? ⟨.versionFour 0⟩ = some o ∧ o.status = .pending ∧
        ((∃ e ∈ w.store.listRows, e.order = ⟨.versionFour 0⟩ ∧
            (e.status = .pending ∨ e.status = .processing)) ∨
          (∃ e ∈ w.store.listRows, e.order = ⟨.versionFour 0⟩ ∧ e.status = .failed ∧
            ∃ r, Deed.forward r ∈ deeds ∧ r.maxAttempts.isSome) ∨
          (∃ m ∈ w.transport.messages ++ w.transport.deadLetters,
            Payload.Announces m.message.body ⟨.versionFour 0⟩) ∨
          ((∃ d ∈ deeds, d.raised = some ⟨.versionFour 0⟩) ∧
            ∀ d ∈ deeds, d.raised = some ⟨.versionFour 0⟩ → d.IsUntold)) := by
  obtain ⟨w₀, hw₀⟩ : ∃ w₀ : World, w₀ = { sendsToOutage := 1 } := ⟨_, rfl⟩
  have hplay : (w₀.play [.accept .outbox none, .relay {} .newYear2024]).map (fun w =>
      ((w.store.orders.find? ⟨.versionFour 0⟩).map (·.status), w.store.available,
        w.ids.next)) = some (some .pending, false, 3) := by
    rw [hw₀]
    decide +kernel
  obtain ⟨w, hw, heq⟩ := Option.map_eq_some_iff.mp hplay
  simp only [Prod.mk.injEq] at heq
  obtain ⟨o, ho, hpending⟩ := Option.map_eq_some_iff.mp heq.1
  have hids : w.ids.Lasts := by
    unfold IdSupply.Lasts
    omega
  obtain ⟨deeds, hturns, hdeeds⟩ : Unfolds Deed.OnTransport w₀ w := by
    refine World.play_unfolds (fun a ha => ?_) hw
    simp only [List.mem_cons, List.not_mem_nil, or_false] at ha
    rcases ha with rfl | rfl
    · refine ⟨fun _ => trivial, fun d hd => ?_⟩
      cases d with
      | accept mode r =>
        obtain rfl : mode = .outbox := hd
        simp [Deed.OnTransport]
      | _ => exact hd.elim
    · refine ⟨fun _ => trivial, fun d hd => ?_⟩
      cases d <;> first | exact hd.elim | trivial
  have hstore : w₀.store = {} := by rw [hw₀]
  have htransport : w₀.transport = {} := by rw [hw₀]
  obtain ⟨hall, -⟩ := no_order_lost_in_transit hstore (by rw [htransport]) (by rw [htransport])
    hturns hdeeds hids
  exact ⟨w₀, w, deeds, hstore, htransport, hturns, hdeeds, hids, heq.2.1, o, ho, hpending,
    hall _ o ho hpending⟩

end OrderFlow
