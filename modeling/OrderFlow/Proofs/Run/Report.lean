import Mathlib.Control.Monad.Basic
import OrderFlow.Proofs.Run.Relay

/-! # What a relay reports

    A relay counts what is to become of a row as soon as it knows how the send has
    ended, and only then it settles the row.  So the report is exact about the
    sends.  About the rows it is exact except for one settlement that may be lost:
    that row is counted as put off, or as given up on, and as an error, and in the
    outbox it still has its lease.

    Each of the counts is the number of rows that show in the outbox what was to
    become of them, and of those of which that is lost
    (`Forwarder.Sends.countP_verdict`). -/

namespace OrderFlow

open World Attempt

/-! ## Counting verdicts -/

namespace ForwardingVerdict

/-- The row is done. -/
def isSent : ForwardingVerdict → Bool
  | .sent => true
  | .putOff _ _ | .givenUp _ => false

/-- The row is put off. -/
def isPutOff : ForwardingVerdict → Bool
  | .putOff _ _ => true
  | .sent | .givenUp _ => false

/-- The row is given up on. -/
def isGivenUp : ForwardingVerdict → Bool
  | .givenUp _ => true
  | .sent | .putOff _ _ => false

end ForwardingVerdict

namespace Sending

/-- What is to become of the row. -/
def verdict (r : Forwarder) (now : Instant) (x : Sending) : ForwardingVerdict :=
  r.verdict x.row now x.answer

/-- The store has refused the settlement. -/
def isUnsettled (x : Sending) : Bool :=
  !x.settled.isOk

/-- What the row is afterwards. -/
def leaves (r : Forwarder) (now : Instant) (x : Sending) : OutboxRow :=
  if x.settled.isOk then (x.verdict r now).change now (x.row.lease now r.claimant.name)
  else x.row.lease now r.claimant.name

/-- The transport keeps a message exactly if the row is done. -/
theorem isSome_held (r : Forwarder) (now : Instant) (x : Sending) :
    x.held.isSome = (x.verdict r now).isSent := by
  unfold held verdict
  cases x.answer with
  | ok id => rfl
  | error cause =>
    unfold Forwarder.verdict
    dsimp only
    split
    · rfl
    · rfl

end Sending

/-- The report with all of these sends counted. -/
def ForwardingReport.tally (report : ForwardingReport) (r : Forwarder) (now : Instant)
    (sendings : List Sending) : ForwardingReport :=
  { report with
    sent := report.sent + sendings.countP fun x => (x.verdict r now).isSent
    rescheduled := report.rescheduled + sendings.countP fun x => (x.verdict r now).isPutOff
    failed := report.failed + sendings.countP fun x => (x.verdict r now).isGivenUp
    errors := report.errors + sendings.countP Sending.isUnsettled }

section tallies
variable {r : Forwarder} {now : Instant} {w w₁ w' : World} {e : OutboxRow}
  {rows rest : List OutboxRow} {sendings : List Sending} {answer : Except TransportError Uuid}
  {cause : OperationError}

/-- A row that is settled is counted before the others. -/
theorem ForwardingReport.tally_count (report : ForwardingReport) :
    (report.count (r.verdict e now answer)).tally r now sendings =
      report.tally r now (⟨w, e, answer, .ok ()⟩ :: sendings) := by
  unfold tally Sending.verdict
  simp only [List.countP_cons]
  cases r.verdict e now answer <;>
    simp [count, Sending.isUnsettled, Except.isOk, Except.toBool, ForwardingVerdict.isSent,
      ForwardingVerdict.isPutOff, ForwardingVerdict.isGivenUp] <;> omega

/-- A row whose settlement is lost is counted all the same, and as an error. -/
theorem ForwardingReport.tally_lost (report : ForwardingReport) :
    { report.count (r.verdict e now answer) with
      errors := (report.count (r.verdict e now answer)).errors + 1 } =
      report.tally r now [⟨w, e, answer, .error cause⟩] := by
  unfold tally Sending.verdict
  simp only [List.countP_singleton]
  cases r.verdict e now answer <;> rfl

theorem Forwarder.relayAll_of_ok {report : ForwardingReport} {w₂ : World}
    (hsend : Call.trySend e.toMessage w = some (.ok answer, w₁))
    (hsettle : (Call.transact fun t => Call.inStore ((r.verdict e now answer).settle t e.id now))
      w₁ = some (.ok (), w₂)) :
    r.relayAll now (e :: rest) report w =
      r.relayAll now rest (report.count (r.verdict e now answer)) w₂ := by
  simp only [relayAll, bind_apply, Attempt.outcome, hsend, hsettle]

theorem Forwarder.relayAll_of_error {report : ForwardingReport}
    (hsend : Call.trySend e.toMessage w = some (.ok answer, w₁))
    (hsettle : (Call.transact fun t => Call.inStore ((r.verdict e now answer).settle t e.id now))
      w₁ = some (.error cause, w')) :
    r.relayAll now (e :: rest) report w =
      some (.ok { report.count (r.verdict e now answer) with
        errors := (report.count (r.verdict e now answer)).errors + 1 }, w') := by
  simp only [relayAll, bind_apply, Attempt.outcome, hsend, hsettle, pure_apply]

/-- **The report counts the sends.** -/
theorem Forwarder.Sends.relayAll_eq (h : r.Sends now w rows sendings w')
    (report : ForwardingReport) :
    r.relayAll now rows report w = some (.ok (report.tally r now sendings), w') := by
  induction h generalizing report with
  | done => rfl
  | next hsend hsettle _ ih =>
    rw [relayAll_of_ok hsend hsettle, ih, ForwardingReport.tally_count]
  | abort hsend hsettle =>
    rw [relayAll_of_error hsend hsettle, ForwardingReport.tally_lost]

/-- Only the last settlement can be lost, and then there may be rows that were not sent. -/
theorem Forwarder.Sends.unsent (h : r.Sends now w rows sendings w') :
    ∃ unsent, rows = sendings.map (·.row) ++ unsent ∧
      sendings.countP Sending.isUnsettled ≤ 1 ∧
      (sendings.countP Sending.isUnsettled = 0 → unsent = []) := by
  induction h with
  | done => exact ⟨[], rfl, Nat.zero_le _, fun _ => rfl⟩
  | next _ _ _ ih =>
    obtain ⟨unsent, hrows, hone, hall⟩ := ih
    rw [List.countP_cons_of_neg Bool.false_ne_true]
    exact ⟨unsent, by rw [hrows]; rfl, hone, hall⟩
  | @abort w w₁ w' e rest answer cause =>
    rw [List.countP_cons_of_pos rfl]
    exact ⟨rest, rfl, Nat.le_refl _, nofun⟩

end tallies

/-! ## The rows in the end -/

section rows
variable {r : Forwarder} {now : Instant} {w w₁ w' : World} {e : OutboxRow}
  {rows : List OutboxRow} {sendings : List Sending}

/-- **One row**: what it is after its settlement. -/
theorem Forwarder.sending_leaves {answer : Except TransportError Uuid}
    {settled : Except OperationError Unit} (horderly : w.store.Orderly)
    (hleased : w.Leased r.claimant now (e :: rows))
    (hsend : Call.trySend e.toMessage w = some (.ok answer, w₁))
    (hsettle : (Call.transact fun t => Call.inStore ((r.verdict e now answer).settle t e.id now))
      w₁ = some (settled, w')) :
    w'.store.rows.find? e.id = some (Sending.leaves r now ⟨w, e, answer, settled⟩) := by
  have helse := Call.moves_trySend _ _ _ _ hsend
  have hrow : w₁.store.rows.find? e.id = some (e.lease now r.claimant.name) := by
    rw [← helse.sameTables.rows]
    exact hleased.rows e List.mem_cons_self
  obtain ⟨-, hrows⟩ := ForwardingVerdict.settle_row (helse.orderly horderly) hrow hsettle
  rw [hrows, if_pos rfl]
  rfl

/-- All rows that are not sent stay as they are. -/
theorem Forwarder.Sends.others_stay (h : r.Sends now w rows sendings w')
    (horderly : w.store.Orderly) (hleased : w.Leased r.claimant now rows) {id : RowId}
    (hid : ∀ x ∈ sendings, x.row.id ≠ id) :
    w'.store.rows.find? id = w.store.rows.find? id := by
  induction h with
  | done => rfl
  | next hsend hsettle _ ih =>
    obtain ⟨hfirst, hothers⟩ := Forwarder.sending_fair horderly hleased hsend hsettle
    rw [ih hfirst.orderly (hleased.rest hothers) fun x hx => hid x (List.mem_cons_of_mem _ hx)]
    exact hothers id (hid _ List.mem_cons_self)
  | abort hsend hsettle =>
    obtain ⟨-, hothers⟩ := Forwarder.sending_fair horderly hleased hsend hsettle
    exact hothers id (hid _ List.mem_cons_self)

/-- **The rows that were sent** are in the end what their settlement has left. -/
theorem Forwarder.Sends.find?_sent (h : r.Sends now w rows sendings w')
    (horderly : w.store.Orderly) (hleased : w.Leased r.claimant now rows) :
    ∀ x ∈ sendings, w'.store.rows.find? x.row.id = some (x.leaves r now) := by
  induction h with
  | done =>
    intro x hx
    cases hx
  | @next w w₁ w₂ w' e rest sendings answer hsend hsettle hrest ih =>
    obtain ⟨hfirst, hothers⟩ := Forwarder.sending_fair horderly hleased hsend hsettle
    intro x hx
    rcases List.mem_cons.mp hx with rfl | hx
    · -- The row is not claimed twice, so none of the later sends is about it.
      obtain ⟨hapart, -⟩ := List.pairwise_cons.mp (List.pairwise_map.mp hleased.distinct)
      obtain ⟨unsent, rfl, -⟩ := hrest.unsent
      have hnew : ∀ x ∈ sendings, x.row.id ≠ e.id := by
        intro x hx
        exact (hapart x.row (List.mem_append_left _ (List.mem_map_of_mem hx))).symm
      show w'.store.rows.find? e.id = _
      rw [hrest.others_stay hfirst.orderly (hleased.rest hothers) hnew]
      exact Forwarder.sending_leaves horderly hleased hsend hsettle
    · exact ih hfirst.orderly (hleased.rest hothers) x hx
  | abort hsend hsettle =>
    intro x hx
    obtain rfl := List.mem_singleton.mp hx
    exact Forwarder.sending_leaves horderly hleased hsend hsettle

/-- **The rows that were not sent** keep their lease. -/
theorem Forwarder.Sends.find?_unsent {unsent : List OutboxRow}
    (h : r.Sends now w (sendings.map (·.row) ++ unsent) sendings w') (horderly : w.store.Orderly)
    (hleased : w.Leased r.claimant now (sendings.map (·.row) ++ unsent)) :
    ∀ e ∈ unsent, w'.store.rows.find? e.id = some (e.lease now r.claimant.name) := by
  intro e he
  have hdistinct := hleased.distinct
  rw [List.map_append, List.map_map, List.nodup_append] at hdistinct
  obtain ⟨-, -, hapart⟩ := hdistinct
  rw [h.others_stay horderly hleased fun x hx =>
    hapart _ (List.mem_map_of_mem hx) _ (List.mem_map_of_mem he)]
  exact hleased.rows e (List.mem_append_right _ he)

end rows

/-! ## The report and the outbox -/

/-- The row is done. -/
def OutboxRow.becameDone (_ e' : OutboxRow) : Bool :=
  e'.status = .processed

/-- The row waits again and has one more failed delivery. -/
def OutboxRow.becamePutOff (e e' : OutboxRow) : Bool :=
  e'.status = .pending ∧ e'.attempts = e.attempts + 1

/-- The row is given up on. -/
def OutboxRow.becameGivenUp (_ e' : OutboxRow) : Bool :=
  e'.status = .failed

/-- How many of the claimed rows have become in the outbox what `became` says. -/
def World.countRows (w : World) (became : OutboxRow → OutboxRow → Bool)
    (rows : List OutboxRow) : Nat :=
  rows.countP fun e => (w.store.rows.find? e.id).any (became e)

/-- How many settlements are lost of which the verdict is as `f` says. -/
def Forwarder.countLost (r : Forwarder) (now : Instant) (f : ForwardingVerdict → Bool)
    (sendings : List Sending) : Nat :=
  sendings.countP fun x => x.isUnsettled && f (x.verdict r now)

section reports
variable {r : Forwarder} {now : Instant} {w w' : World} {rows : List OutboxRow}
  {sendings : List Sending} {report : ForwardingReport}

/-- A sent row shows its verdict afterwards, unless the settlement is lost. -/
theorem Sending.became_leaves {f : ForwardingVerdict → Bool}
    {became : OutboxRow → OutboxRow → Bool}
    (hchange : ∀ v e, became e (v.change now (e.lease now r.claimant.name)) = f v)
    (hlease : ∀ e, became e (e.lease now r.claimant.name) = false) (x : Sending) :
    became x.row (x.leaves r now) = (!x.isUnsettled && f (x.verdict r now)) := by
  unfold leaves isUnsettled
  by_cases hsettled : x.settled.isOk = true
  · rw [if_pos hsettled, hchange, hsettled]
    rfl
  · rw [if_neg hsettled, hlease, Bool.eq_false_iff.mpr hsettled]
    rfl

/-- **A verdict is in the outbox, or it is lost.** -/
theorem Forwarder.Sends.countP_verdict {f : ForwardingVerdict → Bool}
    {became : OutboxRow → OutboxRow → Bool}
    (hchange : ∀ v e, became e (v.change now (e.lease now r.claimant.name)) = f v)
    (hlease : ∀ e, became e (e.lease now r.claimant.name) = false)
    (h : r.Sends now w rows sendings w') (horderly : w.store.Orderly)
    (hleased : w.Leased r.claimant now rows) :
    (sendings.countP fun x => f (x.verdict r now)) =
      w'.countRows became rows + r.countLost now f sendings := by
  obtain ⟨unsent, rfl, -⟩ := h.unsent
  have hunsent : (unsent.countP fun e => (w'.store.rows.find? e.id).any (became e)) = 0 := by
    rw [List.countP_eq_zero]
    intro e he
    rw [h.find?_unsent horderly hleased e he, Option.any_some, hlease]
    exact Bool.false_ne_true
  have hrows : w'.countRows became (sendings.map (·.row) ++ unsent) =
      sendings.countP fun x => !x.isUnsettled && f (x.verdict r now) := by
    unfold World.countRows
    rw [List.countP_append, hunsent, List.countP_map, Nat.add_zero]
    apply List.countP_congr
    intro x hx
    show (w'.store.rows.find? x.row.id).any (became x.row) = true ↔ _
    rw [h.find?_sent horderly hleased x hx, Option.any_some, x.became_leaves hchange hlease]
  -- Of all sends with such a verdict some are lost, and the others are in the outbox.
  have hsplit := List.countP_eq_countP_filter_add sendings (fun x => f (x.verdict r now))
    Sending.isUnsettled
  simp only [List.countP_filter, Bool.and_comm (f _)] at hsplit
  rw [hrows, hsplit, Nat.add_comm]
  rfl

/-- **What a report says**, of the rows that were claimed and of what was sent between `w`
    and `w'`. -/
structure Forwarder.Reports (r : Forwarder) (now : Instant) (w : World) (rows : List OutboxRow)
    (sendings : List Sending) (w' : World) (report : ForwardingReport) : Prop where
  claimed : report.claimed = rows.length
  /-- The transport has got one message for each row that is counted as sent. -/
  messages : ∃ accepted, w'.transport.messages = w.transport.messages ++ accepted ∧
    accepted.length = report.sent
  sent : report.sent = w'.countRows OutboxRow.becameDone rows +
    r.countLost now ForwardingVerdict.isSent sendings
  rescheduled : report.rescheduled = w'.countRows OutboxRow.becamePutOff rows +
    r.countLost now ForwardingVerdict.isPutOff sendings
  failed : report.failed = w'.countRows OutboxRow.becameGivenUp rows +
    r.countLost now ForwardingVerdict.isGivenUp sendings
  errors : report.errors = sendings.countP Sending.isUnsettled
  errors_le : report.errors ≤ 1
  /-- Without an error nothing is lost. -/
  settled : report.errors = 0 →
    report.sent = w'.countRows OutboxRow.becameDone rows ∧
    report.rescheduled = w'.countRows OutboxRow.becamePutOff rows ∧
    report.failed = w'.countRows OutboxRow.becameGivenUp rows
  /-- The rows are sent in their order, and all of them unless a settlement is lost. -/
  inOrder : ∃ unsent, rows = sendings.map (·.row) ++ unsent ∧ (report.errors = 0 → unsent = [])
  /-- Each claimed row is settled in one of three ways, or it is still under its lease. -/
  shown : ∀ e ∈ rows, ∃ e', w'.store.rows.find? e.id = some e' ∧
    (e.becameDone e' ∨ e.becamePutOff e' ∨ e.becameGivenUp e' ∨
      e' = e.lease now r.claimant.name)

/-- If no settlement is lost then no verdict is. -/
theorem Forwarder.countLost_eq_zero {f : ForwardingVerdict → Bool}
    (h : sendings.countP Sending.isUnsettled = 0) : r.countLost now f sendings = 0 := by
  unfold countLost
  rw [List.countP_eq_zero] at h ⊢
  intro x hx hlost
  rw [Bool.and_eq_true] at hlost
  exact h x hx hlost.1

theorem OutboxRow.becameDone_change (v : ForwardingVerdict) (e : OutboxRow) :
    e.becameDone (v.change now (e.lease now r.claimant.name)) = v.isSent := by
  cases v <;> rfl

theorem OutboxRow.becamePutOff_change (v : ForwardingVerdict) (e : OutboxRow) :
    e.becamePutOff (v.change now (e.lease now r.claimant.name)) = v.isPutOff := by
  cases v with
  | putOff next error => exact decide_eq_true ⟨rfl, rfl⟩
  | sent | givenUp error => rfl

theorem OutboxRow.becameGivenUp_change (v : ForwardingVerdict) (e : OutboxRow) :
    e.becameGivenUp (v.change now (e.lease now r.claimant.name)) = v.isGivenUp := by
  cases v <;> rfl

/-- What a sent row is then shows what has become of it. -/
theorem Sending.leaves_shows (x : Sending) :
    x.row.becameDone (x.leaves r now) ∨ x.row.becamePutOff (x.leaves r now) ∨
      x.row.becameGivenUp (x.leaves r now) ∨
        x.leaves r now = x.row.lease now r.claimant.name := by
  unfold leaves
  split
  · cases x.verdict r now with
    | sent => exact Or.inl rfl
    | putOff next error => exact Or.inr (Or.inl (decide_eq_true ⟨rfl, rfl⟩))
    | givenUp error => exact Or.inr (Or.inr (Or.inl rfl))
  · exact Or.inr (Or.inr (Or.inr rfl))

/-- **A report is exact about what was sent, and about the rows but for one.**  In every
    poll that answers a report, whatever is in the outbox and however store and transport
    come and go: one message was accepted for each row that is counted as sent; and the
    rows that are counted as done, put off or given up on are those that the outbox shows
    so, and one more if the store has refused to settle it.  Such a row is counted as an
    error too, there is at most one, and with it the poll ends.  Every claimed row that
    was not settled is under the lease of this poll. -/
theorem Forwarder.report_counts_sends (horderly : w.store.Orderly)
    (h : r.poll now w = some (.ok report, w')) :
    ∃ rows w₁ sendings, r.claimant.claim now w = some (.ok (report.released, rows), w₁) ∧
      r.Sends now w₁ rows sendings w' ∧ r.Reports now w rows sendings w' report := by
  obtain ⟨⟨released, rows⟩, w₁, hclaim, hrelay⟩ := bind_eq_ok_iff.mp h
  obtain ⟨sendings, hsends⟩ := relayAll_sends hrelay
  -- The sends determine the report.
  obtain rfl : report = {
      released := released
      claimed := rows.length
      sent := sendings.countP fun x => (x.verdict r now).isSent
      rescheduled := sendings.countP fun x => (x.verdict r now).isPutOff
      failed := sendings.countP fun x => (x.verdict r now).isGivenUp
      errors := sendings.countP Sending.isUnsettled } := by
    cases (hsends.relayAll_eq { released := released, claimed := rows.length }).symm.trans hrelay
    simp only [ForwardingReport.tally, Nat.zero_add]
  obtain ⟨hclaimed, hleases⟩ := Claimant.claim_fair horderly hclaim
  have hleased := hleases released rows rfl
  have hfair := hsends.fair hclaimed.orderly hleased
  obtain ⟨unsent, hrows, hone, hall⟩ := hsends.unsent
  have hdone := hsends.countP_verdict OutboxRow.becameDone_change (fun _ => rfl)
    hclaimed.orderly hleased
  have hputOff := hsends.countP_verdict OutboxRow.becamePutOff_change (fun _ => rfl)
    hclaimed.orderly hleased
  have hgivenUp := hsends.countP_verdict OutboxRow.becameGivenUp_change (fun _ => rfl)
    hclaimed.orderly hleased
  refine ⟨rows, w₁, sendings, hclaim, hsends, ?_⟩
  constructor
  case claimed => rfl
  case messages =>
    refine ⟨sendings.filterMap Sending.held, ?_, ?_⟩
    · rw [hfair.messages, hclaimed.messages, List.filterMap_nil, List.append_nil]
    · rw [List.length_filterMap_eq_countP]
      simp only [Sending.isSome_held r now]
  case sent => exact hdone
  case rescheduled => exact hputOff
  case failed => exact hgivenUp
  case errors => rfl
  case errors_le => exact hone
  case settled =>
    intro hnone
    rw [countLost_eq_zero hnone] at hdone hputOff hgivenUp
    exact ⟨hdone, hputOff, hgivenUp⟩
  case inOrder => exact ⟨unsent, hrows, hall⟩
  case shown =>
    intro e he
    subst hrows
    rcases List.mem_append.mp he with he | he
    · obtain ⟨x, hx, rfl⟩ := List.mem_map.mp he
      exact ⟨_, hsends.find?_sent hclaimed.orderly hleased x hx, x.leaves_shows⟩
    · exact ⟨_, hsends.find?_unsent hclaimed.orderly hleased e he, Or.inr (Or.inr (Or.inr rfl))⟩

end reports

/-- A row that waits since the new year. -/
def dueRow (n : Nat) : OutboxRow :=
  .fresh ⟨.versionFour n⟩ ⟨.versionFour (10 + n)⟩ OutboxRow.orderCreatedType " " .newYear2024

/-- The store goes down while the only row is sent, and the transport is not available. -/
def downWhileSent : World where
  store := { rows := [((dueRow 0).id, dueRow 0)] }
  transport := { available := false }
  sendsToOutage := 1

/-- **A settlement that is lost**: the row is reported as put off, and it is not. -/
theorem report_counts_lost_settlement :
    downWhileSent.store.Orderly ∧ ∃ w' w₁,
      Claimant.claim { name := "relay" } .newYear2024 downWhileSent =
        some (.ok (0, [dueRow 0]), w₁) ∧
      Forwarder.poll {} .newYear2024 downWhileSent =
        some (.ok { claimed := 1, rescheduled := 1, errors := 1 }, w') ∧
      w'.countRows OutboxRow.becamePutOff [dueRow 0] = 0 ∧
      w'.store.rows.find? (dueRow 0).id = some ((dueRow 0).lease .newYear2024 "relay") := by
  have horderly : downWhileSent.store.Orderly := Store.orderly_of_rows (Table.Keyed.nil.put rfl)
  have hclaim : (Claimant.claim { name := "relay" } .newYear2024 downWhileSent).map (·.1) =
      some (.ok (0, [dueRow 0])) := by
    decide +kernel
  have hpoll : (Forwarder.poll {} .newYear2024 downWhileSent).map (fun a =>
      (a.1, a.2.countRows OutboxRow.becamePutOff [dueRow 0],
        a.2.store.rows.find? (dueRow 0).id)) =
      some (.ok { claimed := 1, rescheduled := 1, errors := 1 }, 0,
        some ((dueRow 0).lease .newYear2024 "relay")) := by
    decide +kernel
  obtain ⟨⟨_, w₁⟩, hclaim, rfl⟩ := Option.map_eq_some_iff.mp hclaim
  obtain ⟨⟨answer, w'⟩, hpoll, hshown⟩ := Option.map_eq_some_iff.mp hpoll
  simp only [Prod.mk.injEq] at hshown
  obtain ⟨rfl, hnone, hrow⟩ := hshown
  exact ⟨horderly, w', w₁, hclaim, hpoll, hnone, hrow⟩

/-- Four rows are due.  The transport is gone when the second one is sent, and the store goes
    down while the third one is sent. -/
def fourDueRows : World where
  store := { rows := ([0, 1, 2, 3].map dueRow).map fun e => (e.id, e) }
  disturbances := List.replicate 7 {} ++ [{ transport := some false }]
  sendsToOutage := 3

/-- The first row is done, the second one is put off, the third one is reported as put off
    too, and the last one is not sent. -/
theorem report_counts_sends_going_down :
    fourDueRows.store.Orderly ∧ ∃ w' w₁ sendings,
      Forwarder.poll {} .newYear2024 fourDueRows =
        some (.ok { claimed := 4, sent := 1, rescheduled := 2, errors := 1 }, w') ∧
      Forwarder.Sends {} .newYear2024 w₁ ([0, 1, 2, 3].map dueRow) sendings w' ∧
      Forwarder.Reports {} .newYear2024 fourDueRows ([0, 1, 2, 3].map dueRow) sendings w'
        { claimed := 4, sent := 1, rescheduled := 2, errors := 1 } ∧
      w'.countRows OutboxRow.becamePutOff ([0, 1, 2, 3].map dueRow) = 1 := by
  have horderly : fourDueRows.store.Orderly := Store.orderly_of_rows (Table.keyed_map (by decide))
  have hclaim : (Claimant.claim { name := "relay" } .newYear2024 fourDueRows).map (·.1) =
      some (.ok (0, [0, 1, 2, 3].map dueRow)) := by
    decide +kernel
  have hpoll : (Forwarder.poll {} .newYear2024 fourDueRows).map (fun a =>
      (a.1, a.2.countRows OutboxRow.becamePutOff ([0, 1, 2, 3].map dueRow))) =
      some (.ok { claimed := 4, sent := 1, rescheduled := 2, errors := 1 }, 1) := by
    decide +kernel
  obtain ⟨⟨answer, w'⟩, hpoll, hshown⟩ := Option.map_eq_some_iff.mp hpoll
  simp only [Prod.mk.injEq] at hshown
  obtain ⟨rfl, hone⟩ := hshown
  obtain ⟨rows, w₁, sendings, hclaimed, hsends, hreports⟩ :=
    Forwarder.report_counts_sends horderly hpoll
  rw [hclaimed, Option.map_some, Option.some.injEq, Except.ok.injEq, Prod.mk.injEq] at hclaim
  obtain ⟨-, rfl⟩ := hclaim
  exact ⟨horderly, w', w₁, sendings, hpoll, hsends, hreports, hone⟩

end OrderFlow
