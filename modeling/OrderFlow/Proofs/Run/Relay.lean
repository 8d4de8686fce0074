import OrderFlow.Proofs.Announcement
import OrderFlow.Proofs.Run.Whole

/-! # Rows that are relayed

    A relay sends a row and then settles it, in two steps, and an outage may come
    before them, between them and after them.  A row whose settlement is lost
    keeps its lease until that is stale, and is sent once more.  There is no
    other reason for sending a row again.

    What a poll has sent is kept in a list (`Batch`), and one lemma says what a
    poll does to a row: the sends of it that were accepted are matched by the
    row's being done from now on and by a settlement that was lost
    (`Batch.Fair`).  Batches can be put together, so the same holds of a sending,
    of a poll and of any number of polls. -/

namespace OrderFlow

open World Attempt

/-! ## The message for a row -/

/-- **The payload is sent as it is**, and instead of a blank one a body that names
    the row's order. -/
theorem OutboxRow.body_toMessage (e : OutboxRow) :
    (Text.isBlank e.payload = false → e.toMessage.body = e.payload) ∧
      (Text.isBlank e.payload = true →
        Payload.ofBody? e.toMessage.body = .ok ⟨e.order, none⟩) := by
  unfold OutboxRow.toMessage
  rw [Message.body_setCorrelation]
  refine ⟨fun h => by rw [h]; rfl, fun h => ?_⟩
  rw [h]
  exact Payload.ofBody?_bare e.order

/-- The correlation id in the payload is the only attribute. -/
theorem OutboxRow.attributes_toMessage (e : OutboxRow) : e.toMessage.attributes =
    ((Payload.correlationIn e.payload).map fun c => ("correlationId", c)).toList := by
  unfold OutboxRow.toMessage
  cases Payload.correlationIn e.payload <;> rfl

/-! ## Rows go on -/

/-- **A row goes on**: it is about the same order and says the same, and once it
    is settled it stays as it is. -/
structure OutboxRow.GoesOn (e e' : OutboxRow) : Prop where
  order : e'.order = e.order
  payload : e'.payload = e.payload
  settled : e.status.isSettled = true → e' = e

theorem OutboxRow.goesOn_of_unsettled {e e' : OutboxRow} (horder : e'.order = e.order)
    (hpayload : e'.payload = e.payload) (hstatus : e.status.isSettled = false) : e.GoesOn e' where
  order := horder
  payload := hpayload
  settled hsettled := by
    rw [hstatus] at hsettled
    cases hsettled

theorem OutboxRow.GoesOn.trans {e e' e'' : OutboxRow} (h : e.GoesOn e') (h' : e'.GoesOn e'') :
    e.GoesOn e'' where
  order := h'.order.trans h.order
  payload := h'.payload.trans h.payload
  settled hsettled := by
    obtain rfl := h.settled hsettled
    exact h'.settled hsettled

/-- A row that was not settled yet. -/
theorem OutboxRow.GoesOn.unsettled {e e' : OutboxRow} (h : e.GoesOn e')
    (hstatus : e'.status.isSettled = false) : e.status.isSettled = false := by
  cases hsettled : e.status.isSettled with
  | false => rfl
  | true =>
    rw [← h.settled hsettled, hstatus] at hsettled
    cases hsettled

/-- **All rows go on**, and there are no others. -/
def World.RowsGoOn (w w' : World) : Prop :=
  ∀ id, Option.Rel OutboxRow.GoesOn (w.store.rows.find? id) (w'.store.rows.find? id)

section rows
variable {w w' : World} {id : RowId} {e e' : OutboxRow}

theorem World.rowsGoOn_of_same (h : ∀ id, w'.store.rows.find? id = w.store.rows.find? id) :
    RowsGoOn w w' := by
  intro id
  rw [h]
  cases w.store.rows.find? id with
  | none => exact .none
  | some e => exact .some ⟨rfl, rfl, fun _ => rfl⟩

theorem World.rowsGoOn_chains : Chains RowsGoOn where
  refl w := rowsGoOn_of_same fun _ => rfl
  trans := by
    intro w₁ w₂ w₃ h₁ h₂ id
    have hfirst := h₁ id
    have hsecond := h₂ id
    revert hfirst hsecond
    generalize w₁.store.rows.find? id = e₁
    generalize w₂.store.rows.find? id = e₂
    generalize w₃.store.rows.find? id = e₃
    rintro (hfirst | _) (hsecond | _)
    · exact .some (hfirst.trans hsecond)
    · exact .none

theorem World.RowsGoOn.after (h : RowsGoOn w w') (he : w.store.rows.find? id = some e) :
    ∃ e', w'.store.rows.find? id = some e' ∧ e.GoesOn e' := by
  have hrow := h id
  rw [he] at hrow
  revert hrow
  generalize w'.store.rows.find? id = found
  rintro (hgoes | _)
  exact ⟨_, rfl, hgoes⟩

theorem World.RowsGoOn.before (h : RowsGoOn w w') (he : w'.store.rows.find? id = some e') :
    ∃ e, w.store.rows.find? id = some e ∧ e.GoesOn e' := by
  have hrow := h id
  rw [he] at hrow
  revert hrow
  generalize w.store.rows.find? id = found
  rintro (hgoes | _)
  exact ⟨_, rfl, hgoes⟩

/-- Counts the row if it is done. -/
def World.doneRow (w : World) (id : RowId) : Nat :=
  match w.store.rows.find? id with
  | some e => if e.status = .processed then 1 else 0
  | none => 0

theorem World.doneRow_of_find (he : w.store.rows.find? id = some e) :
    w.doneRow id = if e.status = .processed then 1 else 0 := by
  unfold World.doneRow
  rw [he]

theorem World.doneRow_of_unsettled (he : w.store.rows.find? id = some e)
    (hstatus : e.status.isSettled = false) : w.doneRow id = 0 := by
  rw [World.doneRow_of_find he]
  split
  · next hdone => rw [hdone] at hstatus; cases hstatus
  · rfl

theorem World.doneRow_congr (h : w'.store.rows.find? id = w.store.rows.find? id) :
    w'.doneRow id = w.doneRow id := by
  unfold World.doneRow
  rw [h]

end rows

/-! ## What a poll sends -/

/-- **A row is sent**, and then settled. -/
structure Sending where
  /-- When it is sent. -/
  before : World
  /-- The row, as it was claimed. -/
  row : OutboxRow
  /-- What the transport has answered. -/
  answer : Except TransportError Uuid
  /-- How the settlement has ended. -/
  settled : Except OperationError Unit

namespace Sending

/-- The transport has accepted the row. -/
def accepts (id : RowId) (x : Sending) : Bool :=
  x.row.id = id && x.answer.isOk

/-- The transport has accepted the row, and the store has not heard of it. -/
def isLost (id : RowId) (x : Sending) : Bool :=
  x.accepts id && !x.settled.isOk

/-- What the transport keeps. -/
def held (x : Sending) : Option HeldMessage :=
  match x.answer with
  | .ok id => some { id := id, message := x.row.toMessage }
  | .error _ => none

end Sending

/-- **Claimed rows are sent** one after the other; a settlement that fails is the
    last. -/
inductive Forwarder.Sends (r : Forwarder) (now : Instant) :
    World → List OutboxRow → List Sending → World → Prop where
  | done {w : World} : Sends r now w [] [] w
  | next {w w₁ w₂ w' : World} {e : OutboxRow} {rest : List OutboxRow} {sendings : List Sending}
    {answer : Except TransportError Uuid}
    (hsend : Call.trySend e.toMessage w = some (.ok answer, w₁))
    (hsettle : (Call.transact fun t => Call.inStore ((r.verdict e now answer).settle t e.id now))
      w₁ = some (.ok (), w₂))
    (hrest : Sends r now w₂ rest sendings w') :
    Sends r now w (e :: rest) (⟨w, e, answer, .ok ()⟩ :: sendings) w'
  | abort {w w₁ w' : World} {e : OutboxRow} {rest : List OutboxRow}
    {answer : Except TransportError Uuid} {cause : OperationError}
    (hsend : Call.trySend e.toMessage w = some (.ok answer, w₁))
    (hsettle : (Call.transact fun t => Call.inStore ((r.verdict e now answer).settle t e.id now))
      w₁ = some (.error cause, w')) :
    Sends r now w (e :: rest) [⟨w, e, answer, .error cause⟩] w'

/-- **What one poll sends**: the rows that it claims, if it can claim any. -/
inductive Forwarder.Relays (r : Forwarder) (now : Instant) (w : World) :
    List Sending → World → Prop where
  | unclaimed {w' : World} {cause : OperationError}
    (h : r.claimant.claim now w = some (.error cause, w')) : Relays r now w [] w'
  | claimed {w₁ w' : World} {released : Nat} {rows : List OutboxRow} {sendings : List Sending}
    (h : r.claimant.claim now w = some (.ok (released, rows), w₁))
    (hsends : r.Sends now w₁ rows sendings w') : Relays r now w sendings w'

section sends
variable {r : Forwarder} {now : Instant} {w w' : World}

theorem Forwarder.relayAll_sends {rows : List OutboxRow} {report : ForwardingReport}
    {result : Except OperationError ForwardingReport}
    (h : r.relayAll now rows report w = some (result, w')) :
    ∃ sendings, r.Sends now w rows sendings w' := by
  induction rows generalizing w report with
  | nil =>
    cases h
    exact ⟨[], .done⟩
  | cons e rest ih =>
    obtain ⟨answer, w₁, settled, w₂, hsend, hsettle,
      ⟨rfl, report', hrest⟩ | ⟨⟨cause, rfl⟩, rfl⟩⟩ := relayAll_cons h
    · obtain ⟨sendings, hsends⟩ := ih hrest
      exact ⟨_, .next hsend hsettle hsends⟩
    · exact ⟨_, .abort hsend hsettle⟩

/-- **Every poll sends something or nothing.** -/
theorem Forwarder.poll_relays {result : Except OperationError ForwardingReport}
    (h : r.poll now w = some (result, w')) : ∃ sendings, r.Relays now w sendings w' := by
  rcases bind_eq_some_iff.mp h with ⟨⟨released, rows⟩, w₁, hclaim, hrest⟩ | ⟨cause, hclaim, -⟩
  · obtain ⟨sendings, hsends⟩ := relayAll_sends hrest
    exact ⟨sendings, .claimed hclaim hsends⟩
  · exact ⟨[], .unclaimed hclaim⟩

end sends

/-! ## Batches -/

/-- What has been sent between two worlds. -/
structure Batch where
  /-- Before the first of it. -/
  before : World
  /-- What was sent, in this order. -/
  sendings : List Sending
  /-- After the last of it. -/
  after : World

/-- The last send of the row was accepted, and its settlement has failed. -/
def Batch.loses (id : RowId) (b : Batch) : Bool :=
  b.sendings.getLast?.any (Sending.isLost id)

/-- **A fair batch**: rows are sent that are owed work, as they are; a row that
    was accepted is done from then on, unless its settlement is lost; and only
    the last settlement can be. -/
structure Batch.Fair (b : Batch) : Prop where
  orderly : b.after.store.Orderly
  rows : b.before.RowsGoOn b.after
  balance : ∀ id, b.after.doneRow id + b.sendings.countP (Sending.isLost id) =
    b.before.doneRow id + b.sendings.countP (Sending.accepts id)
  messages : b.after.transport.messages =
    b.before.transport.messages ++ b.sendings.filterMap Sending.held
  origin : ∀ x ∈ b.sendings, ∃ e, b.before.store.rows.find? x.row.id = some e ∧
    e.status.isSettled = false ∧ x.row.order = e.order ∧ x.row.payload = e.payload
  leased : ∀ x ∈ b.sendings, ∃ e, x.before.store.rows.find? x.row.id = some e ∧
    e.status = .processing
  settled : ∀ x ∈ b.sendings.dropLast, x.settled = .ok ()
  ended : ∀ x ∈ b.sendings, x.settled = .ok () ∨ x.settled = .error (.store Store.offline)

section batches
variable {w w₁ w' : World} {sendings sendings' : List Sending}

/-- At most one settlement is lost, the last one. -/
theorem Batch.Fair.countP_isLost {b : Batch} (h : b.Fair) (id : RowId) :
    b.sendings.countP (Sending.isLost id) = if b.loses id then 1 else 0 := by
  unfold Batch.loses
  cases hlast : b.sendings.getLast? with
  | none =>
    rw [List.getLast?_eq_none_iff.mp hlast]
    rfl
  | some x =>
    obtain ⟨before, hsendings⟩ := List.getLast?_eq_some_iff.mp hlast
    -- Whatever comes before the last one is settled.
    have hbefore : before.countP (Sending.isLost id) = 0 := by
      refine List.countP_eq_zero.mpr fun y hy => ?_
      have hsettled := h.settled y (by rwa [hsendings, List.dropLast_concat])
      simp [Sending.isLost, hsettled, Except.isOk, Except.toBool]
    rw [hsendings, List.countP_append, hbefore, List.countP_singleton, Nat.zero_add]
    rfl

/-- **Batches are put together** if all of the first is settled. -/
theorem Batch.Fair.append (h : Batch.Fair ⟨w, sendings, w₁⟩) (h' : Batch.Fair ⟨w₁, sendings', w'⟩)
    (hsettled : ∀ x ∈ sendings, x.settled = .ok ()) :
    Batch.Fair ⟨w, sendings ++ sendings', w'⟩ where
  orderly := h'.orderly
  rows := rowsGoOn_chains.trans h.rows h'.rows
  balance id := by
    have hfirst := h.balance id
    have hsecond := h'.balance id
    simp only [List.countP_append] at hfirst hsecond ⊢
    omega
  messages := by
    rw [h'.messages, h.messages, List.filterMap_append, List.append_assoc]
  origin := by
    intro x hx
    rcases List.mem_append.mp hx with hx | hx
    · exact h.origin x hx
    · -- A row that is owed work later on was owed work before.
      obtain ⟨e₁, he₁, hstatus, horder, hpayload⟩ := h'.origin x hx
      obtain ⟨e, he, hgoes⟩ := h.rows.before he₁
      exact ⟨e, he, hgoes.unsettled hstatus, horder.trans hgoes.order,
        hpayload.trans hgoes.payload⟩
  leased x hx := (List.mem_append.mp hx).elim (h.leased x) (h'.leased x)
  settled := by
    intro x hx
    rw [List.dropLast_append] at hx
    split at hx
    · exact hsettled x ((List.dropLast_sublist _).subset hx)
    · exact (List.mem_append.mp hx).elim (hsettled x) (h'.settled x)
  ended x hx := (List.mem_append.mp hx).elim (h.ended x) (h'.ended x)

/-- **Nothing is sent**, and no row is settled. -/
theorem Batch.fair_of_unsettled {P : OutboxRow → OutboxRow → Prop} (horderly : w'.store.Orderly)
    (hmessages : w'.transport.messages = w.transport.messages)
    (hrows : ∀ id, w'.store.rows.find? id = w.store.rows.find? id ∨
      ∃ e e', w.store.rows.find? id = some e ∧ w'.store.rows.find? id = some e' ∧ P e e')
    (hP : ∀ e e', P e e' → e'.order = e.order ∧ e'.payload = e.payload ∧
      e.status.isSettled = false ∧ e'.status.isSettled = false) : Batch.Fair ⟨w, [], w'⟩ where
  orderly := horderly
  rows := by
    intro id
    rcases hrows id with hsame | ⟨e, e', he, he', hwritten⟩
    · rw [hsame]
      exact rowsGoOn_chains.refl w id
    · obtain ⟨horder, hpayload, hstatus, -⟩ := hP e e' hwritten
      rw [he, he']
      exact .some (OutboxRow.goesOn_of_unsettled horder hpayload hstatus)
  balance := by
    intro id
    rcases hrows id with hsame | ⟨e, e', he, he', hwritten⟩
    · rw [doneRow_congr hsame]
      rfl
    · obtain ⟨-, -, hstatus, hstatus'⟩ := hP e e' hwritten
      rw [doneRow_of_unsettled he hstatus, doneRow_of_unsettled he' hstatus']
      rfl
  messages := by rw [hmessages, List.filterMap_nil, List.append_nil]
  origin := by simp
  leased := by simp
  settled := by simp
  ended := by simp

/-- **Nothing is sent**, and all rows stay as they are. -/
theorem Batch.fair_of_same (horderly : w'.store.Orderly)
    (hmessages : w'.transport.messages = w.transport.messages)
    (hrows : ∀ id, w'.store.rows.find? id = w.store.rows.find? id) : Batch.Fair ⟨w, [], w'⟩ :=
  Batch.fair_of_unsettled (P := fun _ _ => False) horderly hmessages (fun id => Or.inl (hrows id))
    fun _ _ hfalse => hfalse.elim

/-! ## A poll's batch -/

variable {c : Claimant} {r : Forwarder} {now : Instant} {e : OutboxRow} {rows : List OutboxRow}

/-- **Leased rows**: each stands in the outbox under its lease, and is there once. -/
structure World.Leased (w : World) (c : Claimant) (now : Instant) (rows : List OutboxRow) :
    Prop where
  distinct : (rows.map (·.id)).Nodup
  rows : ∀ e ∈ rows, w.store.rows.find? e.id = some (e.lease now c.name)

/-- The rows that are left when another one has changed. -/
theorem World.Leased.rest (h : w.Leased c now (e :: rows))
    (hothers : ∀ id, e.id ≠ id → w'.store.rows.find? id = w.store.rows.find? id) :
    w'.Leased c now rows := by
  obtain ⟨hapart, hrest⟩ := List.pairwise_cons.mp (List.pairwise_map.mp h.distinct)
  refine ⟨List.pairwise_map.mpr hrest, ?_⟩
  intro e' he'
  rw [hothers _ (hapart e' he'), h.rows e' (List.mem_cons_of_mem _ he')]

theorem Claimant.release_fair {result : Except OperationError Nat} (horderly : w.store.Orderly)
    (h : c.release now w = some (result, w')) : Batch.Fair ⟨w, [], w'⟩ := by
  have hended := Claimant.release_ended horderly h
  refine Batch.fair_of_unsettled hended.orderly hended.around.messages hended.rewrites.2 ?_
  rintro e _ ⟨hstatus, rfl⟩
  exact ⟨rfl, rfl, by rw [hstatus]; rfl, rfl⟩

theorem Claimant.lease_fair {result : Except OperationError (List OutboxRow)}
    (horderly : w.store.Orderly) (h : c.lease now w = some (result, w')) :
    Batch.Fair ⟨w, [], w'⟩ ∧ ∀ rows, result = .ok rows → w'.Leased c now rows := by
  have hended := Claimant.lease_ended horderly h
  cases hended with
  | @committed found called tx _ hQ hwrote =>
    obtain ⟨-, hfound⟩ := hQ
    have hleases := hfound found rfl
    refine ⟨?_, fun rows hr => ?_⟩
    · refine Batch.fair_of_unsettled hwrote.orderly hwrote.around.messages
        (hleases.rewrites.tables hwrote).2 ?_
      rintro e _ ⟨he, rfl⟩
      exact ⟨rfl, rfl, by rw [(hleases.seen e he).2]; rfl, rfl⟩
    · cases hr
      exact ⟨hleases.distinct, fun e he => (hwrote.rows _).trans (hleases.leased e he)⟩
  | failed _ hwrote | refused hwrote _ =>
    exact ⟨Batch.fair_of_same hwrote.orderly hwrote.around.messages hwrote.unchanged.2.1, nofun⟩

/-- **A claim** sends nothing, and what it answers is leased. -/
theorem Claimant.claim_fair {result : Except OperationError (Nat × List OutboxRow)}
    (horderly : w.store.Orderly) (h : c.claim now w = some (result, w')) :
    Batch.Fair ⟨w, [], w'⟩ ∧
      ∀ released rows, result = .ok (released, rows) → w'.Leased c now rows := by
  rcases bind_eq_some_iff.mp h with ⟨released, w₁, hrelease, hrest⟩ | ⟨cause, hrelease, rfl⟩
  · have hfirst := release_fair horderly hrelease
    rcases bind_eq_some_iff.mp hrest with ⟨found, w₂, hlease, hpure⟩ | ⟨cause, hlease, rfl⟩
    · cases hpure
      obtain ⟨hsecond, hleased⟩ := lease_fair hfirst.orderly hlease
      refine ⟨hfirst.append hsecond (by simp), fun released rows hr => ?_⟩
      cases hr
      exact hleased found rfl
    · exact ⟨hfirst.append (lease_fair hfirst.orderly hlease).1 (by simp), nofun⟩
  · exact ⟨release_fair horderly hrelease, nofun⟩

/-- **A settlement is committed or lost**: the row becomes what the verdict says, or the
    store refuses and it stays as it is. -/
theorem ForwardingVerdict.settle_row {v : ForwardingVerdict} {row : OutboxRow}
    {settled : Except OperationError Unit} (horderly : w.store.Orderly)
    (hrow : w.store.rows.find? e.id = some row)
    (h : (Call.transact fun t => Call.inStore (v.settle t e.id now)) w = some (settled, w')) :
    (settled = .ok () ∨ settled = .error (.store Store.offline)) ∧
      ∀ i, w'.store.rows.find? i =
        if e.id = i then some (if settled.isOk then v.change now row else row)
        else w.store.rows.find? i := by
  cases ForwardingVerdict.settle_changes horderly h with
  | committed hchanges hwrote =>
    cases hchanges with
    | @changed row₁ hrow₁ =>
      rw [hrow, Option.some.injEq] at hrow₁
      subst hrow₁
      refine ⟨Or.inl rfl, fun i => ?_⟩
      rw [hwrote.rows, Store.rowIn_putRow, Store.rowIn_hold, Store.rowIn_empty]
      rfl
  | failed hchanges _ =>
    cases hchanges with
    | missing hnone =>
      rw [hrow] at hnone
      cases hnone
  | refused hwrote _ =>
    refine ⟨Or.inr rfl, fun i => ?_⟩
    rw [hwrote.unchanged.2.1]
    split
    · next hi => rw [← hi, hrow]; rfl
    · rfl

/-- **A leased row goes on.**  It is done exactly if it was sent and that is written down. -/
theorem Forwarder.settle_row {row : OutboxRow} {answer : Except TransportError Uuid}
    {settled : Except OperationError Unit} (horderly : w.store.Orderly)
    (hrow : w.store.rows.find? e.id = some row) (hstatus : row.status = .processing)
    (h : (Call.transact fun t => Call.inStore ((r.verdict e now answer).settle t e.id now)) w =
      some (settled, w')) :
    (settled = .ok () ∨ settled = .error (.store Store.offline)) ∧
      ∃ row', row.GoesOn row' ∧
        (row'.status = .processed ↔ settled = .ok () ∧ ∃ id, answer = .ok id) ∧
        ∀ i, w'.store.rows.find? i = if e.id = i then some row' else w.store.rows.find? i := by
  obtain ⟨hend, hrows⟩ := ForwardingVerdict.settle_row horderly hrow h
  refine ⟨hend, _, ?_, ?_, hrows⟩
  · rcases hend with rfl | rfl
    · exact OutboxRow.goesOn_of_unsettled (ForwardingVerdict.change_order ..)
        (ForwardingVerdict.change_payload ..) (by rw [hstatus]; rfl)
    · exact ⟨rfl, rfl, fun _ => rfl⟩
  · rcases hend with rfl | rfl
    · simp [Except.isOk, Except.toBool, r.change_processed_iff]
    · simp [Except.isOk, Except.toBool, hstatus]

/-- **One sending**, and all other rows stay as they are. -/
theorem Forwarder.sending_fair {answer : Except TransportError Uuid}
    {settled : Except OperationError Unit} (horderly : w.store.Orderly)
    (hleased : w.Leased c now (e :: rows))
    (hsend : Call.trySend e.toMessage w = some (.ok answer, w₁))
    (hsettle : (Call.transact fun t => Call.inStore ((r.verdict e now answer).settle t e.id now))
      w₁ = some (settled, w')) :
    Batch.Fair ⟨w, [⟨w, e, answer, settled⟩], w'⟩ ∧
      ∀ id, e.id ≠ id → w'.store.rows.find? id = w.store.rows.find? id := by
  have helse := Call.moves_trySend _ _ _ _ hsend
  have hsame (id : RowId) : w₁.store.rows.find? id = w.store.rows.find? id := by
    rw [helse.sameTables.rows]
  have hrow := hleased.rows e List.mem_cons_self
  have hended := ForwardingVerdict.settle_changes (helse.orderly horderly) hsettle
  obtain ⟨hend, row', hgoes, hdone, hrows⟩ :=
    Forwarder.settle_row (helse.orderly horderly) ((hsame _).trans hrow) rfl hsettle
  have hself : w'.store.rows.find? e.id = some row' := by rw [hrows, if_pos rfl]
  have hothers (id : RowId) (hid : e.id ≠ id) :
      w'.store.rows.find? id = w.store.rows.find? id := by
    rw [hrows, if_neg hid, hsame]
  refine ⟨{
    orderly := hended.orderly
    rows := fun id => ?_
    balance := fun id => ?_
    messages := ?_
    origin := by simpa using ⟨_, hrow, rfl, rfl, rfl⟩
    leased := by simpa using ⟨_, hrow, rfl⟩
    settled := by simp
    ended := by simpa using hend }, hothers⟩
  · by_cases hid : e.id = id
    · subst hid
      rw [hself, hrow]
      exact .some hgoes
    · rw [hothers id hid]
      exact rowsGoOn_chains.refl w id
  · by_cases hid : e.id = id
    · -- The row was not done before.
      subst hid
      show w'.doneRow e.id + _ = w.doneRow e.id + _
      rw [doneRow_of_unsettled hrow rfl, doneRow_of_find hself]
      rcases hend with rfl | rfl
      · cases answer <;> simp [hdone, Sending.isLost, Sending.accepts, Except.isOk, Except.toBool]
      · cases answer <;> simp [hdone, Sending.isLost, Sending.accepts, Except.isOk, Except.toBool]
    · show w'.doneRow id + _ = w.doneRow id + _
      rw [doneRow_congr (hothers id hid)]
      simp [Sending.isLost, Sending.accepts, hid]
  · show w'.transport.messages = _
    rw [hended.around.messages, Call.trySend_messages hsend]
    cases answer <;> rfl

/-- **Claimed rows are sent.** -/
theorem Forwarder.Sends.fair (h : r.Sends now w rows sendings w') (horderly : w.store.Orderly)
    (hleased : w.Leased c now rows) : Batch.Fair ⟨w, sendings, w'⟩ := by
  induction h with
  | done => exact Batch.fair_of_same horderly rfl fun _ => rfl
  | next hsend hsettle _ ih =>
    -- No row is claimed twice, so the others are leased still.
    obtain ⟨hfirst, hothers⟩ := Forwarder.sending_fair horderly hleased hsend hsettle
    exact hfirst.append (ih hfirst.orderly (hleased.rest hothers)) (by simp)
  | abort hsend hsettle => exact (Forwarder.sending_fair horderly hleased hsend hsettle).1

/-- **One poll.** -/
theorem Forwarder.Relays.fair (h : r.Relays now w sendings w') (horderly : w.store.Orderly) :
    Batch.Fair ⟨w, sendings, w'⟩ := by
  cases h with
  | unclaimed hclaim => exact (Claimant.claim_fair horderly hclaim).1
  | claimed hclaim hsends =>
    obtain ⟨hfirst, hleased⟩ := Claimant.claim_fair horderly hclaim
    exact hfirst.append (hsends.fair hfirst.orderly (hleased _ _ rfl)) (by simp)

end batches

/-! ## Runs -/

/-- **Any number of polls** of any relays, and what each has sent, oldest first.
    Between two polls anything may happen that leaves the rows alone: time passes,
    store and transport come and go, and messages are taken. -/
inductive RelayRun (w₀ : World) : List Batch → World → Prop where
  | start : RelayRun w₀ [] w₀
  | poll {batches : List Batch} {w w' : World} {r : Forwarder} {now : Instant}
    {result : Except OperationError ForwardingReport} {sendings : List Sending}
    (h : RelayRun w₀ batches w) (hpoll : r.poll now w = some (result, w'))
    (hrelays : r.Relays now w sendings w') : RelayRun w₀ (batches ++ [⟨w, sendings, w'⟩]) w'
  | aside {batches : List Batch} {w w' : World} (h : RelayRun w₀ batches w)
    (horderly : w'.store.Orderly)
    (hrows : ∀ id, w'.store.rows.find? id = w.store.rows.find? id) : RelayRun w₀ batches w'

/-- How many sends of the row were accepted. -/
def acceptedSends (id : RowId) (batches : List Batch) : Nat :=
  (batches.flatMap (·.sendings)).countP (Sending.accepts id)

/-- How many polls have ended with a send of the row that was accepted and not
    settled. -/
def lostSettlements (id : RowId) (batches : List Batch) : Nat :=
  batches.countP (Batch.loses id)

/-- **A fair run**, in which each row goes on and the sends of it are balanced. -/
structure RelayRun.Fair (w₀ : World) (batches : List Batch) (w : World) : Prop where
  orderly : w.store.Orderly
  rows : w₀.RowsGoOn w
  balance : ∀ id, w.doneRow id + lostSettlements id batches =
    w₀.doneRow id + acceptedSends id batches
  batches : ∀ b ∈ batches, b.Fair ∧ w₀.RowsGoOn b.before

section runs
variable {w₀ w : World} {batches : List Batch}

theorem RelayRun.fair (h : RelayRun w₀ batches w) (horderly : w₀.store.Orderly) :
    RelayRun.Fair w₀ batches w := by
  induction h with
  | start => exact ⟨horderly, rowsGoOn_chains.refl w₀, fun id => rfl, by simp⟩
  | @poll batches w w' r now result sendings _ _ hrelays ih =>
    have hbatch := hrelays.fair ih.orderly
    refine ⟨hbatch.orderly, rowsGoOn_chains.trans ih.rows hbatch.rows, fun id => ?_, ?_⟩
    · -- What the poll adds to one side of the balance it adds to the other.
      have hbefore := ih.balance id
      have hlast := hbatch.balance id
      rw [hbatch.countP_isLost] at hlast
      unfold acceptedSends lostSettlements at hbefore ⊢
      simp only [List.flatMap_append, List.countP_append, List.flatMap_cons, List.flatMap_nil,
        List.append_nil, List.countP_singleton] at hbefore hlast ⊢
      omega
    · intro b hb
      rcases List.mem_append.mp hb with hb | hb
      · exact ih.batches b hb
      · obtain rfl := List.mem_singleton.mp hb
        exact ⟨hbatch, ih.rows⟩
  | aside _ horderly' hrows ih =>
    refine ⟨horderly', rowsGoOn_chains.trans ih.rows (rowsGoOn_of_same hrows), fun id => ?_,
      ih.batches⟩
    rw [doneRow_congr (hrows id)]
    exact ih.balance id

/-- A settled row stays as it is, and nothing that is sent is about it. -/
theorem RelayRun.Fair.settled_stays (h : RelayRun.Fair w₀ batches w) {id : RowId} {e : OutboxRow}
    (he : w₀.store.rows.find? id = some e) (hsettled : e.status.isSettled = true) :
    w.store.rows.find? id = some e ∧ ∀ b ∈ batches, ∀ x ∈ b.sendings, x.row.id ≠ id := by
  refine ⟨?_, fun b hb x hx hid => ?_⟩
  · obtain ⟨e', he', hgoes⟩ := h.rows.after he
    rw [he', hgoes.settled hsettled]
  · -- What is sent was owed work before its poll, and the row was settled then already.
    obtain ⟨hfair, hrows⟩ := h.batches b hb
    obtain ⟨e₁, he₁, hstatus, -⟩ := hfair.origin x hx
    obtain ⟨e', he', hgoes⟩ := hrows.after he
    rw [hid, he', Option.some.injEq, hgoes.settled hsettled] at he₁
    rw [he₁, hstatus] at hsettled
    cases hsettled

/-- **Rows are relayed at least once.**  In any run of polls that has the rows for
    itself, with any relays, at any times, and with any outages of transport and
    store, also in the middle of a poll:

    For each row that waited at first, the sends that were accepted are one if the
    row is done now, and one more for each poll that the store has ended right
    after an accepted send of the row.

    A row that is done or given up on stays so and is not sent again, and what is
    sent is always a row in processing.

    The transport has got one message for each accepted send, in this order.  It
    says what the row has said at first, or names the row's order if that is
    blank, and its only attribute is the correlation id in the payload.  Only the
    last settlement of a poll can fail, and only because the store is unavailable.

    Every poll of a relay is one more poll of such a run. -/
theorem rows_relayed_at_least_once (horderly : w₀.store.Orderly) (h : RelayRun w₀ batches w) :
    (∀ id e₀, w₀.store.rows.find? id = some e₀ → e₀.status = .pending →
      ∃ e, w.store.rows.find? id = some e ∧ e.order = e₀.order ∧ e.payload = e₀.payload ∧
        acceptedSends id batches =
          (if e.status = .processed then 1 else 0) + lostSettlements id batches) ∧
    (∀ id e, w.store.rows.find? id = some e → e.status = .processed ∨ e.status = .failed →
      ∀ batches' w', RelayRun w batches' w' → w'.store.rows.find? id = some e ∧
        ∀ b ∈ batches', ∀ x ∈ b.sendings, x.row.id ≠ id) ∧
    (∀ b ∈ batches,
      b.after.transport.messages =
        b.before.transport.messages ++ b.sendings.filterMap Sending.held ∧
      (∀ x ∈ b.sendings.dropLast, x.settled = .ok ()) ∧
      ∀ x ∈ b.sendings,
        (x.settled = .ok () ∨ x.settled = .error (.store Store.offline)) ∧
        (∃ e, x.before.store.rows.find? x.row.id = some e ∧ e.status = .processing) ∧
        ∃ e₀, w₀.store.rows.find? x.row.id = some e₀ ∧
          (Text.isBlank e₀.payload = false → x.row.toMessage.body = e₀.payload) ∧
          (Text.isBlank e₀.payload = true →
            Payload.ofBody? x.row.toMessage.body = .ok ⟨e₀.order, none⟩) ∧
          x.row.toMessage.attributes =
            ((Payload.correlationIn e₀.payload).map fun c => ("correlationId", c)).toList) ∧
    ∀ (r : Forwarder) now result w', r.poll now w = some (result, w') →
      ∃ sendings, r.Relays now w sendings w' ∧
        RelayRun w₀ (batches ++ [⟨w, sendings, w'⟩]) w' := by
  have hfair := h.fair horderly
  refine ⟨fun id e₀ he₀ hpending => ?_, fun id e he hsettled batches' w' h' => ?_,
    fun b hb => ?_, fun r now result w' hpoll => ?_⟩
  · obtain ⟨e, he, hgoes⟩ := hfair.rows.after he₀
    have hbefore : w₀.doneRow id = 0 := doneRow_of_unsettled he₀ (by rw [hpending]; rfl)
    have hbalance := hfair.balance id
    rw [doneRow_of_find he, hbefore, Nat.zero_add] at hbalance
    exact ⟨e, he, hgoes.order, hgoes.payload, hbalance.symm⟩
  · refine (h'.fair hfair.orderly).settled_stays he ?_
    rcases hsettled with hstatus | hstatus
    · rw [hstatus]
      rfl
    · rw [hstatus]
      rfl
  · obtain ⟨hbatch, hrows⟩ := hfair.batches b hb
    refine ⟨hbatch.messages, hbatch.settled,
      fun x hx => ⟨hbatch.ended x hx, hbatch.leased x hx, ?_⟩⟩
    -- What is sent says what the row has said from the beginning.
    obtain ⟨e, he, -, horder, hpayload⟩ := hbatch.origin x hx
    obtain ⟨e₀, he₀, hgoes⟩ := hrows.before he
    obtain ⟨hverbatim, hbare⟩ := x.row.body_toMessage
    have hattributes := x.row.attributes_toMessage
    rw [hpayload.trans hgoes.payload] at hverbatim hbare hattributes
    rw [horder.trans hgoes.order] at hbare
    exact ⟨e₀, he₀, hverbatim, hbare, hattributes⟩
  · obtain ⟨sendings, hrelays⟩ := Forwarder.poll_relays hpoll
    exact ⟨sendings, hrelays, h.poll hpoll hrelays⟩

end runs

/-- Rows under their own ids, and nothing else. -/
theorem Store.orderly_of_rows {rows : Table RowId OutboxRow} (h : Table.Keyed OutboxRow.id rows) :
    Store.Orderly { rows := rows } :=
  { Store.orderly_empty with rows := h }

/-- The store goes down while a row is sent.  When it is up again and the lease is
    stale, the row is sent once more. -/
theorem rows_relayed_at_least_once_settlement_lost :
    ∃ w₀ w batches e₀ e, w₀.store.Orderly ∧ RelayRun w₀ batches w ∧
      w₀.store.rows.find? ⟨.versionFour 0⟩ = some e₀ ∧ e₀.status = .pending ∧
      w.store.rows.find? ⟨.versionFour 0⟩ = some e ∧ e.status = .processed ∧
      w₀.transport.messages = [] ∧ w.transport.messages.length = 2 ∧
      acceptedSends ⟨.versionFour 0⟩ batches = 1 + lostSettlements ⟨.versionFour 0⟩ batches := by
  obtain ⟨e₀, he₀⟩ : ∃ e₀, e₀ = OutboxRow.fresh ⟨.versionFour 0⟩ ⟨.versionFour 1⟩
    OutboxRow.orderCreatedType " " .newYear2024 := ⟨_, rfl⟩
  obtain ⟨w₀, hw₀⟩ : ∃ w₀ : World,
    w₀ = { store := { rows := [(⟨.versionFour 0⟩, e₀)] }, sendsToOutage := 1 } := ⟨_, rfl⟩
  have hpolls : ((Forwarder.poll {} .newYear2024 w₀).bind fun a =>
      (Forwarder.poll {} (Instant.newYear2024.later (.ofSeconds 60))
        (a.2.setStoreAvailable true))).map (fun a =>
          ((a.2.store.rows.find? ⟨.versionFour 0⟩).map (·.status),
            a.2.transport.messages.length)) = some (some .processed, 2) := by
    rw [hw₀, he₀]
    decide +kernel
  obtain ⟨⟨result₂, w⟩, hpolls, heq⟩ := Option.map_eq_some_iff.mp hpolls
  obtain ⟨⟨result₁, w₁⟩, hfirst, hsecond⟩ := Option.bind_eq_some_iff.mp hpolls
  simp only [Prod.mk.injEq] at heq
  obtain ⟨hrow, hmessages⟩ := heq
  obtain ⟨e, he, hprocessed⟩ := Option.map_eq_some_iff.mp hrow
  have horderly : w₀.store.Orderly := by
    rw [hw₀]
    refine Store.orderly_of_rows (Table.Keyed.nil.put ?_)
    rw [he₀]
    rfl
  obtain ⟨sendings₁, hrelays₁⟩ := Forwarder.poll_relays hfirst
  obtain ⟨sendings₂, hrelays₂⟩ := Forwarder.poll_relays hsecond
  have hbefore : RelayRun w₀ [⟨w₀, sendings₁, w₁⟩] w₁ := .poll .start hfirst hrelays₁
  have hback : RelayRun w₀ _ (w₁.setStoreAvailable true) :=
    .aside hbefore ((hbefore.fair horderly).orderly.setAvailable true) fun _ => rfl
  have hrun := hback.poll hsecond hrelays₂
  have hfound : w₀.store.rows.find? ⟨.versionFour 0⟩ = some e₀ := by
    rw [hw₀]
    rfl
  have hpending : e₀.status = .pending := by rw [he₀]; rfl
  obtain ⟨e', he', -, -, hsends⟩ :=
    (rows_relayed_at_least_once horderly hrun).1 _ e₀ hfound hpending
  rw [he, Option.some.injEq] at he'
  rw [← he', if_pos hprocessed] at hsends
  exact ⟨w₀, w, _, e₀, e, horderly, hrun, hfound, hpending, he, hprocessed, by rw [hw₀], hmessages,
    hsends⟩

end OrderFlow
