import OrderFlow.Proofs.Run.Cycle

/-! # Polls and what they do to one row

    Pollers of both kinds look into the outbox.  Each frees stale rows, leases due
    ones and deals with them in their order, and it may break off anywhere: an
    outage ends it, or it is killed between two calls.  Then the rows that are left
    keep their lease, until a later poll finds it stale.

    A run of polls is a list of such dealings.  Whatever it is that pollers have in
    common, one row sees three things only: it is leased when it is due, its lease
    ends, and it is dealt with as it was when it was claimed.  So what these three
    keep holds of the row at any time, together with the dealings with it so far
    (`PollRun.keeps_row`). -/

namespace OrderFlow

open World Attempt

/-! ## Dealing with a claimed row -/

/-- **Who polls the outbox.** -/
inductive Poller where
  /-- It processes the orders of rows. -/
  | processing (p : OutboxProcessor)
  /-- It sends rows. -/
  | relaying (r : Forwarder)

namespace Poller

/-- How rows are claimed. -/
def claimant : Poller → Claimant
  | .processing p => p.claimant
  | .relaying r => r.claimant

/-- When a row that was put off is due again. -/
def retry : Poller → RetryPolicy
  | .processing p => p.retry
  | .relaying r => r.retry

end Poller

/-- **What is done about a claimed row** at the time `now`, and how it ends.  The row
    is as it was when it was claimed. -/
inductive Dealing where
  /-- One transaction makes an attempt on its order and settles it. -/
  | attempted (p : OutboxProcessor) (now : Instant) (row : OutboxRow)
      (result : Except OperationError Outcome)
  /-- The attempt has failed, and a second transaction gives up on the row. -/
  | refused (p : OutboxProcessor) (now : Instant) (row : OutboxRow) (cause : OperationError)
      (given : Except OperationError Unit)
  /-- The row is sent, and then a transaction settles it. -/
  | sent (r : Forwarder) (now : Instant) (row : OutboxRow) (answer : Except TransportError Uuid)
      (settled : Except OperationError Unit)

namespace Dealing

/-- Who deals with the row. -/
def poller : Dealing → Poller
  | .attempted p _ _ _ | .refused p _ _ _ _ => .processing p
  | .sent r _ _ _ _ => .relaying r

/-- What the clock of the poll shows. -/
def now : Dealing → Instant
  | .attempted _ now _ _ | .refused _ now _ _ _ | .sent _ now _ _ _ => now

/-- The row, as it was claimed. -/
def row : Dealing → OutboxRow
  | .attempted _ _ row _ | .refused _ _ row _ _ | .sent _ _ row _ _ => row

/-- The row under its lease. -/
def leased (d : Dealing) : OutboxRow :=
  d.row.lease d.now d.poller.claimant.name

/-- What is committed. -/
def change : Dealing → OutboxRow → OutboxRow
  | .attempted p now row (.ok outcome), e => p.settled row now outcome e
  | .refused _ now _ cause (.ok _), e => e.giveUp now cause.message
  | .sent r now row answer (.ok _), e => (r.verdict row now answer).change now e
  | .attempted _ _ _ (.error _), e | .refused _ _ _ _ (.error _), e
  | .sent _ _ _ _ (.error _), e => e

/-- What the row is afterwards. -/
def leaves (d : Dealing) : OutboxRow :=
  d.change d.leased

/-- **The calls** that the dealing is made of. -/
inductive Happens (w : World) : Dealing → World → Prop where
  | attempted {p : OutboxProcessor} {now : Instant} {e : OutboxRow}
    {result : Except OperationError Outcome} {w' : World}
    (h : p.settle e now w = some (result, w')) : Happens w (.attempted p now e result) w'
  | refused {p : OutboxProcessor} {now : Instant} {e : OutboxRow} {cause : OperationError}
    {given : Except OperationError Unit} {w₁ w' : World}
    (h : p.settle e now w = some (.error cause, w₁))
    (hgive : OutboxProcessor.giveUp e now cause w₁ = some (given, w')) :
    Happens w (.refused p now e cause given) w'
  | sent {r : Forwarder} {now : Instant} {e : OutboxRow} {answer : Except TransportError Uuid}
    {settled : Except OperationError Unit} {w₁ w' : World}
    (hsend : Call.trySend e.toMessage w = some (.ok answer, w₁))
    (hsettle : (Call.transact fun t => Call.inStore ((r.verdict e now answer).settle t e.id now))
      w₁ = some (settled, w')) :
    Happens w (.sent r now e answer settled) w'

end Dealing

section dealings
variable {w w' : World} {p : OutboxProcessor} {now : Instant} {e row : OutboxRow} {d : Dealing}

/-- **An attempt is committed with the row, or nothing is.** -/
theorem OutboxProcessor.settle_row {result : Except OperationError Outcome}
    (horderly : w.store.Orderly) (hrow : w.store.rows.find? e.id = some row)
    (h : p.settle e now w = some (result, w')) (i : RowId) :
    w'.store.rows.find? i =
      if e.id = i then some ((Dealing.attempted p now e result).change row)
      else w.store.rows.find? i := by
  -- Where nothing is committed, the row is as it was.
  have hkept (hrows : ∀ i, w'.store.rows.find? i = w.store.rows.find? i) :
      w'.store.rows.find? i = if e.id = i then some row else w.store.rows.find? i := by
    rw [hrows]
    split
    · next hi => rw [← hi, hrow]
    · rfl
  cases OutboxProcessor.settle_ended horderly h with
  | committed hsettles hwrote =>
    cases hsettles with
    | @settled _ _ tx row₁ htries hrow₁ =>
      rw [hrow, Option.some.injEq] at hrow₁
      subst hrow₁
      rw [hwrote.rows, Store.rowIn_putRow, Store.rowIn_hold, htries.rowIn]
      rfl
  | failed _ hwrote | refused hwrote _ => exact hkept hwrote.unchanged.2.1

/-- **One dealing writes one row.** -/
theorem Dealing.Happens.writes (h : d.Happens w w') (horderly : w.store.Orderly)
    (hrow : w.store.rows.find? d.row.id = some row) : w'.store.Orderly ∧
      ∀ i, w'.store.rows.find? i =
        if d.row.id = i then some (d.change row) else w.store.rows.find? i := by
  cases h with
  | attempted h =>
    exact ⟨(OutboxProcessor.settle_ended horderly h).orderly,
      OutboxProcessor.settle_row horderly hrow h⟩
  | @refused p now e cause given w₁ w' h hgive =>
    have horderly₁ := (OutboxProcessor.settle_ended horderly h).orderly
    -- The attempt has changed nothing.
    have hkept (i : RowId) :
        w₁.store.rows.find? i = if e.id = i then some row else w.store.rows.find? i :=
      OutboxProcessor.settle_row horderly hrow h i
    have hrow₁ : w₁.store.rows.find? e.id = some row := by rw [hkept, if_pos rfl]
    have hended :=
      ForwardingVerdict.settle_changes (v := .givenUp cause.message) horderly₁ hgive
    obtain ⟨-, hgiven⟩ :=
      ForwardingVerdict.settle_row (v := .givenUp cause.message) horderly₁ hrow₁ hgive
    refine ⟨hended.orderly, fun i => ?_⟩
    show _ = if e.id = i then _ else _
    by_cases hi : e.id = i
    · rw [hgiven, if_pos hi, if_pos hi]
      cases given <;> rfl
    · rw [hgiven, if_neg hi, if_neg hi, hkept, if_neg hi]
  | @sent r now e answer settled w₁ w' hsend hsettle =>
    have helse := Call.moves_trySend _ _ _ _ hsend
    have horderly₁ := helse.orderly horderly
    have hrow₁ : w₁.store.rows.find? e.id = some row := by
      rw [← helse.sameTables.rows]
      exact hrow
    obtain ⟨-, hsettled⟩ := ForwardingVerdict.settle_row horderly₁ hrow₁ hsettle
    refine ⟨(ForwardingVerdict.settle_changes horderly₁ hsettle).orderly, fun i => ?_⟩
    rw [hsettled, helse.sameTables.rows]
    cases settled <;> rfl

end dealings

/-! ## Claimed rows are due -/

section claims
variable {c : Claimant} {now : Instant} {w w' : World} {rows : List OutboxRow}

/-- Rows that are leased are due. -/
theorem Claimant.lease_due (horderly : w.store.Orderly)
    (h : c.lease now w = some (.ok rows, w')) : ∀ e ∈ rows, e.isDue now := by
  obtain ⟨t, w₁, s, -, hclaim⟩ := Claimant.lease_claims horderly h
  obtain ⟨tx, found, hr, hdue, -⟩ := Store.claimDue_eq_some hclaim
  cases hr
  exact fun e he => (hdue e he).2.1

/-- **What a lease does to a row**: nothing, or it was due and is leased. -/
theorem Claimant.lease_row {result : Except OperationError (List OutboxRow)}
    (horderly : w.store.Orderly) (h : c.lease now w = some (result, w')) (id : RowId) :
    w'.store.rows.find? id = w.store.rows.find? id ∨
      ∃ e, w.store.rows.find? id = some e ∧ e.isDue now ∧
        w'.store.rows.find? id = some (e.lease now c.name) := by
  cases Claimant.lease_ended horderly h with
  | @committed found called tx _ hQ hwrote =>
    obtain ⟨-, hfound⟩ := hQ
    rcases ((hfound found rfl).rewrites.tables hwrote).2 id with
      hsame | ⟨e, e', he, he', hin, rfl⟩
    · exact Or.inl hsame
    · exact Or.inr ⟨e, he, Claimant.lease_due horderly h e hin, he'⟩
  | failed _ hwrote | refused hwrote _ => exact Or.inl (hwrote.unchanged.2.1 id)

/-- **What a release does to a row**: nothing, or its lease ends. -/
theorem Claimant.release_row {result : Except OperationError Nat} (horderly : w.store.Orderly)
    (h : c.release now w = some (result, w')) (id : RowId) :
    w'.store.rows.find? id = w.store.rows.find? id ∨
      ∃ e, w.store.rows.find? id = some e ∧ e.status = .processing ∧
        w'.store.rows.find? id = some e.endLease := by
  rcases (Claimant.release_ended horderly h).rewrites.2 id with
    hsame | ⟨e, e', he, he', hstatus, rfl⟩
  · exact Or.inl hsame
  · exact Or.inr ⟨e, he, hstatus, he'⟩

/-- **A claimed row is due**, whether it has waited or its lease was stale. -/
theorem Claimant.claim_due {released : Nat} (horderly : w.store.Orderly)
    (h : c.claim now w = some (.ok (released, rows), w')) {x : OutboxRow} (hx : x ∈ rows) :
    ∃ e, w.store.rows.find? x.id = some e ∧ (x = e ∨ x = e.endLease) ∧ x.isDue now := by
  obtain ⟨freed, w₁, hrelease, hrest⟩ := bind_eq_ok_iff.mp h
  obtain ⟨found, w₂, hlease, hpure⟩ := bind_eq_ok_iff.mp hrest
  cases hpure
  have horderly₁ := (Claimant.release_ended horderly hrelease).orderly
  have hdue := Claimant.lease_due horderly₁ hlease x hx
  have hfound : w₁.store.rows.find? x.id = some x := by
    cases Claimant.lease_ended horderly₁ hlease with
    | committed hQ _ => exact ((hQ.2 _ rfl).seen x hx).1
  rcases Claimant.release_row horderly hrelease x.id with hsame | ⟨e, he, -, he'⟩
  · exact ⟨x, hsame ▸ hfound, Or.inl rfl, hdue⟩
  · rw [hfound, Option.some.injEq] at he'
    exact ⟨e, he, Or.inr he', hdue⟩

end claims

/-! ## Runs of polls -/

/-- **A poll under way**: who polls, what the clock shows, and the claimed rows that
    were not dealt with yet. -/
structure Polling where
  /-- Who polls. -/
  poller : Poller
  /-- What the clock of the poll shows. -/
  now : Instant
  /-- The rows that are left. -/
  left : List OutboxRow

/-- **Any number of polls**, one after the other, at any times, and the dealings of
    all of them, oldest first.  A poll may break off anywhere.  In between anything
    may happen that leaves the rows alone that are there: orders are accepted, time
    passes, messages are taken, and store and transport come and go. -/
inductive PollRun (w₀ : World) : List Dealing → Polling → World → Prop where
  | start {x : Poller} {now : Instant} : PollRun w₀ [] ⟨x, now, []⟩ w₀
  /-- A poll begins. -/
  | release {ds : List Dealing} {last : Polling} {w w' : World} {x : Poller} {now : Instant}
    {result : Except OperationError Nat} (h : PollRun w₀ ds last w) (hidle : last.left = [])
    (hrelease : x.claimant.release now w = some (result, w')) : PollRun w₀ ds ⟨x, now, []⟩ w'
  | lease {ds : List Dealing} {x : Poller} {now : Instant} {w w' : World} {rows : List OutboxRow}
    (h : PollRun w₀ ds ⟨x, now, []⟩ w)
    (hlease : x.claimant.lease now w = some (.ok rows, w')) : PollRun w₀ ds ⟨x, now, rows⟩ w'
  | noLease {ds : List Dealing} {x : Poller} {now : Instant} {w w' : World}
    {cause : OperationError} (h : PollRun w₀ ds ⟨x, now, []⟩ w)
    (hlease : x.claimant.lease now w = some (.error cause, w')) : PollRun w₀ ds ⟨x, now, []⟩ w'
  /-- The next row is dealt with. -/
  | deal {ds : List Dealing} {d : Dealing} {left : List OutboxRow} {w w' : World}
    (h : PollRun w₀ ds ⟨d.poller, d.now, d.row :: left⟩ w) (hd : d.Happens w w') :
    PollRun w₀ (ds ++ [d]) ⟨d.poller, d.now, left⟩ w'
  /-- The poll ends, whatever is left. -/
  | breakOff {ds : List Dealing} {current : Polling} {w : World} (h : PollRun w₀ ds current w) :
    PollRun w₀ ds { current with left := [] } w
  | aside {ds : List Dealing} {current : Polling} {w w' : World} (h : PollRun w₀ ds current w)
    (horderly : w'.store.Orderly) (hrows : ∀ id e, w.store.rows.find? id = some e →
      w'.store.rows.find? id = some e) : PollRun w₀ ds current w'

/-- The dealings with one row. -/
def dealingsWith (id : RowId) (ds : List Dealing) : List Dealing :=
  ds.filter fun d => d.row.id = id

section runs
variable {w₀ w w' : World} {ds : List Dealing} {current : Polling} {id : RowId} {d : Dealing}

theorem dealingsWith_append_self (h : d.row.id = id) :
    dealingsWith id (ds ++ [d]) = dealingsWith id ds ++ [d] := by
  unfold dealingsWith
  rw [List.filter_append, List.filter_cons_of_pos (by simpa using h), List.filter_nil]

theorem dealingsWith_append_other (h : d.row.id ≠ id) :
    dealingsWith id (ds ++ [d]) = dealingsWith id ds := by
  unfold dealingsWith
  rw [List.filter_append, List.filter_cons_of_neg (by simpa using h), List.filter_nil,
    List.append_nil]

theorem World.leased_nil (w : World) (c : Claimant) (now : Instant) : w.Leased c now [] :=
  ⟨List.nodup_nil, by simp⟩

/-- **The rows that are left are under their lease.** -/
theorem PollRun.leased (h : PollRun w₀ ds current w) (horderly : w₀.store.Orderly) :
    w.store.Orderly ∧ w.Leased current.poller.claimant current.now current.left := by
  induction h with
  | start => exact ⟨horderly, leased_nil _ _ _⟩
  | release _ _ hrelease ih =>
    exact ⟨(Claimant.release_ended ih.1 hrelease).orderly, leased_nil _ _ _⟩
  | lease _ hlease ih =>
    obtain ⟨hfair, hleased⟩ := Claimant.lease_fair ih.1 hlease
    exact ⟨hfair.orderly, hleased _ rfl⟩
  | noLease _ hlease ih => exact ⟨(Claimant.lease_ended ih.1 hlease).orderly, leased_nil _ _ _⟩
  | deal _ hd ih =>
    obtain ⟨horderly₁, hleased⟩ := ih
    obtain ⟨horderly₂, hrows⟩ := hd.writes horderly₁ (hleased.rows _ List.mem_cons_self)
    -- No row is claimed twice, so the dealing leaves the others as they are.
    exact ⟨horderly₂, hleased.rest fun i hi => by rw [hrows, if_neg hi]⟩
  | breakOff _ ih => exact ⟨ih.1, leased_nil _ _ _⟩
  | aside _ horderly' hrows ih =>
    obtain ⟨-, hleased⟩ := ih
    exact ⟨horderly', hleased.distinct, fun e he => hrows _ _ (hleased.rows e he)⟩

/-- **What leases, their ends and dealings keep of a row** holds of it in any run of
    polls, together with the dealings with it.  `Q` is what is known of those. -/
theorem PollRun.keeps_row {e₀ : OutboxRow} {I : List Dealing → OutboxRow → Prop}
    {Q : Dealing → Prop} (h : PollRun w₀ ds current w) (horderly : w₀.store.Orderly)
    (he₀ : w₀.store.rows.find? id = some e₀) (hall : ∀ d ∈ ds, d.row.id = id → Q d)
    (hstart : I [] e₀)
    (hlease : ∀ {past e now name}, I past e → e.isDue now → I past (e.lease now name))
    (hend : ∀ {past e}, I past e → e.status = .processing → I past e.endLease)
    (hdeal : ∀ {past d}, I past d.leased → Q d → I (past ++ [d]) d.leaves) :
    ∃ e, w.store.rows.find? id = some e ∧ I (dealingsWith id ds) e := by
  induction h with
  | start => exact ⟨e₀, he₀, hstart⟩
  | release h₀ _ hrelease ih =>
    obtain ⟨e, he, hI⟩ := ih hall
    rcases Claimant.release_row (h₀.leased horderly).1 hrelease id with
      hsame | ⟨e₁, he₁, hstatus, hfreed⟩
    · exact ⟨e, hsame.trans he, hI⟩
    · rw [he, Option.some.injEq] at he₁
      subst he₁
      exact ⟨_, hfreed, hend hI hstatus⟩
  | lease h₀ hleases ih | noLease h₀ hleases ih =>
    obtain ⟨e, he, hI⟩ := ih hall
    rcases Claimant.lease_row (h₀.leased horderly).1 hleases id with
      hsame | ⟨e₁, he₁, hdue, hleased⟩
    · exact ⟨e, hsame.trans he, hI⟩
    · rw [he, Option.some.injEq] at he₁
      subst he₁
      exact ⟨_, hleased, hlease hI hdue⟩
  | @deal ds d left w w' h₀ hd ih =>
    obtain ⟨e, he, hI⟩ := ih fun d hd => hall d (List.mem_append_left _ hd)
    obtain ⟨horderly₁, hleased⟩ := h₀.leased horderly
    have hrow : w.store.rows.find? d.row.id = some d.leased :=
      hleased.rows _ List.mem_cons_self
    obtain ⟨-, hrows⟩ := hd.writes horderly₁ hrow
    by_cases hid : d.row.id = id
    · -- The row is the one that was claimed, under its lease.
      rw [hid, he, Option.some.injEq] at hrow
      subst hrow
      rw [dealingsWith_append_self hid]
      refine ⟨d.leaves, ?_, hdeal hI (hall d (by simp) hid)⟩
      rw [hrows, if_pos hid]
      rfl
    · rw [dealingsWith_append_other hid]
      exact ⟨e, by rw [hrows, if_neg hid, he], hI⟩
  | breakOff _ ih => exact ih hall
  | aside _ _ hrows ih =>
    obtain ⟨e, he, hI⟩ := ih hall
    exact ⟨e, hrows id e he, hI⟩

end runs

/-! ## Every poll goes on with a run -/

/-- **One poll of `x`** at the time `now` goes on with a run. -/
def PollRun.GoesOn (w₀ : World) (ds : List Dealing) (x : Poller) (now : Instant)
    (w' : World) : Prop :=
  ∃ more, PollRun w₀ (ds ++ more) ⟨x, now, []⟩ w' ∧ ∀ d ∈ more, d.poller = x ∧ d.now = now

section polls
variable {w₀ w w' : World} {ds : List Dealing} {current : Polling} {now : Instant}
  {rows : List OutboxRow}

/-- The poll ends here. -/
theorem PollRun.goesOn {x : Poller} {left : List OutboxRow}
    (h : PollRun w₀ ds ⟨x, now, left⟩ w') : GoesOn w₀ ds x now w' := by
  refine ⟨[], ?_, by simp⟩
  rw [List.append_nil]
  exact h.breakOff

/-- The next row is dealt with, and then the rest of them. -/
theorem PollRun.dealThen {d : Dealing} {left : List OutboxRow} {w₁ : World}
    (h : PollRun w₀ ds ⟨d.poller, d.now, d.row :: left⟩ w) (hd : d.Happens w w₁)
    (hrest : PollRun w₀ (ds ++ [d]) ⟨d.poller, d.now, left⟩ w₁ →
      GoesOn w₀ (ds ++ [d]) d.poller d.now w') : GoesOn w₀ ds d.poller d.now w' := by
  obtain ⟨more, hrun, hmore⟩ := hrest (h.deal hd)
  refine ⟨d :: more, ?_, by simpa using hmore⟩
  rwa [List.append_assoc] at hrun

/-- Claimed rows are processed. -/
theorem PollRun.settleAll {p : OutboxProcessor} {report : ProcessingReport}
    {result : Except OperationError ProcessingReport}
    (h : PollRun w₀ ds ⟨.processing p, now, rows⟩ w)
    (hall : p.settleAll now rows report w = some (result, w')) :
    GoesOn w₀ ds (.processing p) now w' := by
  induction rows generalizing w ds report with
  | nil =>
    cases hall
    exact h.goesOn
  | cons e rest ih =>
    obtain ⟨settled, w₁, hsettle, hrest⟩ := outcome_bind_eq_some hall
    rcases settled with cause | outcome
    · dsimp only at hrest
      split at hrest
      · -- The row is given up on at once.
        obtain ⟨given, w₂, hgive, hrest⟩ := outcome_bind_eq_some hrest
        apply h.dealThen (d := .refused p now e cause given) (.refused hsettle hgive)
        exact fun hdealt => ih hdealt hrest
      · -- The poll ends here and drops the rows that are left.
        cases hrest
        apply h.dealThen (d := .attempted p now e (.error cause)) (.attempted hsettle)
        exact fun hdealt => hdealt.goesOn
    · apply h.dealThen (d := .attempted p now e (.ok outcome)) (.attempted hsettle)
      exact fun hdealt => ih hdealt hrest

/-- Claimed rows are sent. -/
theorem PollRun.relayAll {r : Forwarder} {report : ForwardingReport}
    {result : Except OperationError ForwardingReport}
    (h : PollRun w₀ ds ⟨.relaying r, now, rows⟩ w)
    (hall : r.relayAll now rows report w = some (result, w')) :
    GoesOn w₀ ds (.relaying r) now w' := by
  induction rows generalizing w ds report with
  | nil =>
    cases hall
    exact h.goesOn
  | cons e rest ih =>
    obtain ⟨answer, w₁, settled, w₂, hsend, hsettle, hrest⟩ := Forwarder.relayAll_cons hall
    apply h.dealThen (d := .sent r now e answer settled) (.sent hsend hsettle)
    intro hdealt
    rcases hrest with ⟨-, report', hrest⟩ | ⟨-, rfl⟩
    · exact ih hdealt hrest
    · exact hdealt.goesOn

/-- **Every poll goes on with a run**: it claims rows, and what is done with them
    is more of the run. -/
theorem PollRun.claimThen {α : Type} {x : Poller} {body : Nat × List OutboxRow → Call α}
    {result : Except OperationError α} (h : PollRun w₀ ds current w)
    (hpoll : (x.claimant.claim now >>= body) w = some (result, w'))
    (hbody : ∀ {w₁ rows released}, PollRun w₀ ds ⟨x, now, rows⟩ w₁ →
      body (released, rows) w₁ = some (result, w') → GoesOn w₀ ds x now w') :
    GoesOn w₀ ds x now w' := by
  rw [Claimant.claim, bind_assoc] at hpoll
  rcases bind_eq_some_iff.mp hpoll with ⟨released, w₁, hrelease, hrest⟩ | ⟨cause, hrelease, -⟩
  · have hbegun := h.breakOff.release rfl hrelease
    rw [bind_assoc] at hrest
    rcases bind_eq_some_iff.mp hrest with ⟨rows, w₂, hlease, hrest⟩ | ⟨cause, hlease, -⟩
    · exact hbody (hbegun.lease hlease) hrest
    · exact (hbegun.noLease hlease).goesOn
  · exact (h.breakOff.release rfl hrelease).goesOn

/-- **Every poll that processes orders** goes on with a run. -/
theorem PollRun.processorPoll {p : OutboxProcessor}
    {result : Except OperationError ProcessingReport} (h : PollRun w₀ ds current w)
    (hpoll : p.poll now w = some (result, w')) : GoesOn w₀ ds (.processing p) now w' :=
  h.claimThen (x := .processing p) hpoll fun hclaimed hrest => hclaimed.settleAll hrest

/-- **Every poll that sends rows** goes on with a run. -/
theorem PollRun.forwarderPoll {r : Forwarder} {result : Except OperationError ForwardingReport}
    (h : PollRun w₀ ds current w) (hpoll : r.poll now w = some (result, w')) :
    GoesOn w₀ ds (.relaying r) now w' :=
  h.claimThen (x := .relaying r) hpoll fun hclaimed hrest => hclaimed.relayAll hrest

end polls

end OrderFlow
