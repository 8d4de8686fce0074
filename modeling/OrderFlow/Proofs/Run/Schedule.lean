import OrderFlow.Proofs.Instant
import OrderFlow.Proofs.Run.Dealing
import OrderFlow.Proofs.Run.Report

/-! # When a row is due again, and when it is given up on

    A row counts how often it was put off.  Each time the count goes from its claim
    into the delay, and the row is due when that is over: no poll claims it before,
    even if it was left in processing in between and its lease has ended as stale.

    A relay with a limit compares the same count with it.  So a send that fails
    counts exactly if its settlement is committed, and the row is given up on with
    the failure that reaches the limit.  That failure is not added to the row's own
    count any more.

    Both are invariants of one row and of the dealings with it
    (`PollRun.keeps_row`). -/

namespace OrderFlow

open World Attempt

/-- What becomes of a row after a send that has failed. -/
theorem Forwarder.verdict_error (r : Forwarder) (e : OutboxRow) (now : Instant)
    (cause : TransportError) : r.verdict e now (.error cause) =
      if r.isExhausted (e.attempts + 1) then .givenUp cause.message
      else .putOff (now.later (r.retry.delayBefore (e.attempts + 1))) cause.message :=
  rfl

/-! ## Putting off -/

/-- The row is put off, and that is committed. -/
def Dealing.putsOff : Dealing → Bool
  | .attempted _ _ _ (.ok .retry) => true
  | .sent r now row answer (.ok _) => (r.verdict row now answer).isPutOff
  | _ => false

/-- The dealings that have put the row off. -/
def putOffs (id : RowId) (ds : List Dealing) : List Dealing :=
  (dealingsWith id ds).filter Dealing.putsOff

section schedule
variable {d : Dealing} {P : RetryPolicy} {e₀ : OutboxRow} {first : Instant} {past : List Dealing}

/-- **A row that is put off** is due after the delay that its count asks for. -/
theorem Dealing.leaves_of_putsOff (h : d.putsOff = true) : ∃ error, d.leaves =
    d.leased.postpone (d.now.later (d.poller.retry.delayBefore (d.row.attempts + 1))) error := by
  unfold putsOff at h
  split at h
  · exact ⟨"retry", rfl⟩
  · next r now row answer _ =>
    cases answer with
    | ok id => cases h
    | error cause =>
      rw [Forwarder.verdict_error] at h
      by_cases hexhausted : r.isExhausted (row.attempts + 1) = true
      · rw [if_pos hexhausted] at h
        cases h
      · refine ⟨cause.message, ?_⟩
        show (r.verdict row now (.error cause)).change now _ = _
        rw [Forwarder.verdict_error, if_neg hexhausted]
        rfl
  · cases h

/-- Whatever else becomes of a row, its count and its due time stay. -/
theorem Dealing.leaves_of_not_putsOff (h : d.putsOff = false) :
    d.leaves.attempts = d.leased.attempts ∧ d.leaves.nextAttemptAt = d.leased.nextAttemptAt := by
  cases d with
  | attempted p now row result =>
    rcases result with cause | outcome
    · exact ⟨rfl, rfl⟩
    · cases outcome with
      | processed | failed => exact ⟨rfl, rfl⟩
      | retry => cases h
  | refused p now row cause given => cases given <;> exact ⟨rfl, rfl⟩
  | sent r now row answer settled =>
    rcases settled with cause | done
    · exact ⟨rfl, rfl⟩
    · change (r.verdict row now answer).isPutOff = false at h
      unfold leaves change
      dsimp only
      cases hverdict : r.verdict row now answer with
      | sent | givenUp => exact ⟨rfl, rfl⟩
      | putOff next error =>
        rw [hverdict] at h
        cases h

/-- When the row is due after it was put off so many times. -/
def dueAfter (P : RetryPolicy) (first : Instant) (puts : List Dealing) : Instant :=
  match puts.getLast? with
  | none => first
  | some d => d.now.later (P.delayBefore puts.length)

theorem dueAfter_append (P : RetryPolicy) (first : Instant) (puts : List Dealing) (d : Dealing) :
    dueAfter P first (puts ++ [d]) = d.now.later (P.delayBefore (puts.length + 1)) := by
  unfold dueAfter
  rw [List.getLast?_concat, List.length_append, List.length_singleton]

/-- **A row on schedule**: its count is that of the dealings that have put it off, and it
    is due after the last of them as the policy says. -/
structure OutboxRow.OnSchedule (e : OutboxRow) (P : RetryPolicy) (first : Instant)
    (puts : List Dealing) : Prop where
  attempts : e.attempts = puts.length
  due : e.nextAttemptAt = dueAfter P first puts

/-- **One dealing keeps the schedule.**  The row was claimed with the count that it still
    has when it is settled. -/
theorem OutboxRow.OnSchedule.deal (h : d.leased.OnSchedule P first (past.filter Dealing.putsOff))
    (hd : d.poller.retry = P) :
    d.leaves.OnSchedule P first ((past ++ [d]).filter Dealing.putsOff) := by
  rw [List.filter_append]
  cases hputs : d.putsOff with
  | true =>
    have hcount : d.row.attempts = (past.filter Dealing.putsOff).length := h.attempts
    obtain ⟨error, hleaves⟩ := Dealing.leaves_of_putsOff hputs
    rw [List.filter_cons_of_pos hputs, List.filter_nil, hleaves]
    refine ⟨?_, ?_⟩
    · rw [List.length_append, List.length_singleton, ← hcount]
      rfl
    · rw [dueAfter_append, ← hcount, ← hd]
      rfl
  | false =>
    obtain ⟨hattempts, hdue⟩ := Dealing.leaves_of_not_putsOff hputs
    rw [List.filter_cons_of_neg (by simp [hputs]), List.filter_nil, List.append_nil]
    exact ⟨hattempts.trans h.attempts, hdue.trans h.due⟩

variable {w₀ w : World} {ds : List Dealing} {current : Polling} {id : RowId}

theorem PollRun.onSchedule (h : PollRun w₀ ds current w) (horderly : w₀.store.Orderly)
    (he₀ : w₀.store.rows.find? id = some e₀) (hnew : e₀.attempts = 0)
    (hshared : ∀ d ∈ ds, d.row.id = id → d.poller.retry = P) :
    ∃ e, w.store.rows.find? id = some e ∧ e.OnSchedule P e₀.nextAttemptAt (putOffs id ds) := by
  apply h.keeps_row (I := fun past e =>
    e.OnSchedule P e₀.nextAttemptAt (past.filter Dealing.putsOff)) horderly he₀ hshared
  · exact ⟨hnew, rfl⟩
  · intro past e now name hI _
    exact ⟨hI.attempts, hI.due⟩
  · intro past e hI _
    exact ⟨hI.attempts, hI.due⟩
  · intro past d hI hd
    exact hI.deal hd

/-- **Rows are put off on schedule.**  In any run of polls, with outages anywhere and
    clocks that show anything, and for any row whose pollers share one retry policy:

    The row's count is the number of times that it was put off.  After the last of
    them, by a poll at the time `t`, it is due when the policy's delay for that count has
    passed since `t`, or at the latest instant there is.

    No claim at an earlier time takes it, whoever makes it, and whether the row waits or
    was left in processing.

    Every poll goes on with such a run. -/
theorem rows_put_off_on_schedule (horderly : w₀.store.Orderly)
    (he₀ : w₀.store.rows.find? id = some e₀) (hnew : e₀.attempts = 0)
    (h : PollRun w₀ ds current w)
    (hshared : ∀ d ∈ ds, d.row.id = id → d.poller.retry = P) :
    (∃ e, w.store.rows.find? id = some e ∧ e.attempts = (putOffs id ds).length ∧
      ((putOffs id ds).getLast? = none → e.nextAttemptAt = e₀.nextAttemptAt) ∧
      (∀ d, (putOffs id ds).getLast? = some d →
        e.nextAttemptAt = d.now.later (P.delayBefore (putOffs id ds).length) ∧
        (d.now.isLeap = false → e.nextAttemptAt.toNanos =
          min (d.now.toNanos + (P.delayMillis (putOffs id ds).length * 1000000 : Nat))
            Instant.latest.toNanos)) ∧
      ∀ (c : Claimant) t released rows w', t < e.nextAttemptAt →
        c.claim t w = some (.ok (released, rows), w') → ∀ x ∈ rows, x.id ≠ id) ∧
    (∀ (p : OutboxProcessor) now result w', p.poll now w = some (result, w') →
      PollRun.GoesOn w₀ ds (.processing p) now w') ∧
    ∀ (r : Forwarder) now result w', r.poll now w = some (result, w') →
      PollRun.GoesOn w₀ ds (.relaying r) now w' := by
  obtain ⟨e, he, hschedule⟩ := h.onSchedule horderly he₀ hnew hshared
  have hdue := hschedule.due
  unfold dueAfter at hdue
  refine ⟨⟨e, he, hschedule.attempts, fun hnone => ?_, fun d hlast => ?_, ?_⟩,
    fun p now result w' hpoll => h.processorPoll hpoll,
    fun r now result w' hpoll => h.forwarderPoll hpoll⟩
  · rw [hnone] at hdue
    exact hdue
  · rw [hlast] at hdue
    refine ⟨hdue, fun hleap => ?_⟩
    rw [hdue, Instant.toNanos_later hleap]
    rfl
  · intro c t released rows w' hearly hclaim x hx hid
    -- A claimed row is due, and neither a lease nor its end makes it due earlier.
    obtain ⟨e', he', hsame, hisdue⟩ := Claimant.claim_due (h.leased horderly).1 hclaim hx
    rw [hid, he, Option.some.injEq] at he'
    subst he'
    have hx : x.nextAttemptAt = e.nextAttemptAt := by
      rcases hsame with rfl | rfl
      · rfl
      · rfl
    simp only [OutboxRow.isDue, decide_eq_true_eq] at hisdue
    rw [hx] at hisdue
    exact hisdue.2 hearly

/-- A row is due while the transport is down, and the store goes down with the second
    send. -/
def transportDown : World where
  store := { rows := [(⟨.versionFour 0⟩, .fresh ⟨.versionFour 0⟩ ⟨.versionFour 1⟩
    OutboxRow.orderCreatedType "" .newYear2024)] }
  transport := { available := false }
  sendsToOutage := 2

theorem transportDown_orderly : transportDown.store.Orderly :=
  Store.orderly_of_rows (Table.Keyed.nil.put rfl)

/-- Three polls.  Before the third the store comes up again, and the lease of the second
    is stale by then. -/
def Forwarder.pollThrice (r : Forwarder) : Option World := do
  let (_, w₁) ← r.poll .newYear2024 transportDown
  let (_, w₂) ← r.poll (Instant.newYear2024.later (.ofSeconds 10)) w₁
  let (_, w₃) ← r.poll (Instant.newYear2024.later (.ofSeconds 60)) (w₂.setStoreAvailable true)
  some w₃

theorem Forwarder.pollThrice_run {r : Forwarder} (h : r.pollThrice = some w) :
    ∃ ds current, PollRun transportDown ds current w ∧ ∀ d ∈ ds, d.poller = .relaying r := by
  obtain ⟨⟨r₁, w₁⟩, hfirst, h⟩ := Option.bind_eq_some_iff.mp h
  obtain ⟨⟨r₂, w₂⟩, hsecond, h⟩ := Option.bind_eq_some_iff.mp h
  obtain ⟨⟨r₃, w₃⟩, hthird, h⟩ := Option.bind_eq_some_iff.mp h
  cases h
  have hstart : PollRun transportDown [] ⟨.relaying r, .newYear2024, []⟩ transportDown := .start
  obtain ⟨ds₁, hrun₁, hds₁⟩ := hstart.forwarderPoll hfirst
  obtain ⟨ds₂, hrun₂, hds₂⟩ := hrun₁.forwarderPoll hsecond
  have hback : PollRun transportDown _ _ (w₂.setStoreAvailable true) :=
    hrun₂.aside ((hrun₂.leased transportDown_orderly).1.setAvailable true) fun _ _ he => he
  obtain ⟨ds₃, hrun₃, hds₃⟩ := hback.forwarderPoll hthird
  refine ⟨_, _, hrun₃, fun d hd => ?_⟩
  rcases List.mem_append.mp hd with hd | hd
  · rcases List.mem_append.mp hd with hd | hd
    · exact (hds₁ d hd).1
    · exact (hds₂ d hd).1
  · exact (hds₃ d hd).1

/-- The second send has left the row in processing.  With the third one it is put off for
    the second time, and two seconds later it is due. -/
theorem rows_put_off_on_schedule_settlement_lost :
    ∃ w ds current e, transportDown.store.Orderly ∧ PollRun transportDown ds current w ∧
      (∀ d ∈ ds, d.poller.retry = .exponential 1000 60000) ∧
      w.store.rows.find? ⟨.versionFour 0⟩ = some e ∧
      (putOffs ⟨.versionFour 0⟩ ds).length = 2 ∧
      e.nextAttemptAt = Instant.newYear2024.later (.ofSeconds 62) ∧
      ∀ (c : Claimant) released rows w',
        c.claim (Instant.newYear2024.later (.ofSeconds 61)) w = some (.ok (released, rows), w') →
          ∀ x ∈ rows, x.id ≠ ⟨.versionFour 0⟩ := by
  have hpolls : (Forwarder.pollThrice { retry := .exponential 1000 60000 }).map (fun w =>
      (w.store.rows.find? ⟨.versionFour 0⟩).map fun e => (e.attempts, e.nextAttemptAt)) =
        some (some (2, Instant.newYear2024.later (.ofSeconds 62))) := by
    decide +kernel
  obtain ⟨w, hthrice, hrow⟩ := Option.map_eq_some_iff.mp hpolls
  obtain ⟨e, he, hparts⟩ := Option.map_eq_some_iff.mp hrow
  simp only [Prod.mk.injEq] at hparts
  obtain ⟨hattempts, hnext⟩ := hparts
  obtain ⟨ds, current, hrun, hds⟩ := Forwarder.pollThrice_run hthrice
  have hretry : ∀ d ∈ ds, d.poller.retry = .exponential 1000 60000 := by
    intro d hd
    rw [hds d hd]
    rfl
  have hfound : transportDown.store.rows.find? ⟨.versionFour 0⟩ = some _ := rfl
  obtain ⟨⟨e', he', hcount, -, -, hclaims⟩, -⟩ :=
    rows_put_off_on_schedule transportDown_orderly hfound rfl hrun fun d hd _ => hretry d hd
  rw [he, Option.some.injEq] at he'
  subst he'
  refine ⟨w, ds, current, e, transportDown_orderly, hrun, hretry, he, ?_, hnext, ?_⟩
  · rw [← hcount, hattempts]
  · intro c released rows w' hclaim
    have hearly : Instant.newYear2024.later (.ofSeconds 61) < e.nextAttemptAt := by
      rw [hnext]
      decide
    exact hclaims c _ released rows w' hearly hclaim

end schedule

/-! ## Giving up -/

/-- What the transport has answered to a send that has failed, if the settlement is
    committed. -/
def Dealing.failedSend : Dealing → Option TransportError
  | .sent _ _ _ (.error cause) (.ok _) => some cause
  | _ => none

/-- The failed sends of a row whose settlement is committed. -/
def failedSends (id : RowId) (ds : List Dealing) : List TransportError :=
  (dealingsWith id ds).filterMap Dealing.failedSend

section limit
variable {d : Dealing} {limit : Option Nat} {e e₀ : OutboxRow} {before : Option String}
  {failures : List TransportError}

/-- **A row within the limit**: so many sends of it have failed. -/
structure OutboxRow.WithinLimit (e : OutboxRow) (limit : Option Nat) (before : Option String)
    (failures : List TransportError) : Prop where
  length_le : ∀ m ∈ limit, failures.length ≤ max m 1
  failed_iff : e.status = .failed ↔ ∃ m ∈ limit, failures.length = max m 1
  attempts : e.attempts = if e.status = .failed then failures.length - 1 else failures.length
  lastError : e.lastError = (failures.getLast?.map TransportError.message).or before

/-- As long as the row is not given up on, only these parts of it count. -/
theorem OutboxRow.WithinLimit.of_open {e' : OutboxRow} (h : e.WithinLimit limit before failures)
    (hopen : e.status ≠ .failed) (hopen' : e'.status ≠ .failed)
    (hattempts : e'.attempts = e.attempts) (hlast : e'.lastError = e.lastError) :
    e'.WithinLimit limit before failures where
  length_le := h.length_le
  failed_iff := by
    rw [← h.failed_iff]
    exact iff_of_false hopen' hopen
  attempts := by
    rw [if_neg hopen', hattempts, h.attempts, if_neg hopen]
  lastError := hlast.trans h.lastError

theorem Forwarder.isExhausted_iff {r : Forwarder} {n : Nat} :
    r.isExhausted n = true ↔ ∃ m ∈ r.maxAttempts, m ≤ n := by
  unfold isExhausted
  cases r.maxAttempts with
  | none => simp
  | some m => simp

/-- **A send of the row has failed**, and that is committed.  The row was claimed with the
    count of the failures before. -/
theorem OutboxRow.WithinLimit.fail {r : Forwarder} {now : Instant} {cause : TransportError}
    {name : String} (h : (e.lease now name).WithinLimit r.maxAttempts before failures) :
    ((r.verdict e now (.error cause)).change now (e.lease now name)).WithinLimit
      r.maxAttempts before (failures ++ [cause]) := by
  have hcount : e.attempts = failures.length := h.attempts
  have hlength : (failures ++ [cause]).length = failures.length + 1 := by simp
  have hlast : some cause.message =
      ((failures ++ [cause]).getLast?.map TransportError.message).or before := by
    rw [List.getLast?_concat]
    rfl
  -- The row is in processing, so the limit was not reached before.
  have hbelow : ∀ m ∈ r.maxAttempts, failures.length < max m 1 := by
    intro m hm
    have hne : failures.length ≠ max m 1 := fun heq => by cases h.failed_iff.mpr ⟨m, hm, heq⟩
    have hle := h.length_le m hm
    omega
  have hle : ∀ m ∈ r.maxAttempts, (failures ++ [cause]).length ≤ max m 1 := by
    intro m hm
    have hless := hbelow m hm
    omega
  rw [Forwarder.verdict_error]
  by_cases hexhausted : r.isExhausted (e.attempts + 1) = true
  · -- This failure reaches the limit; the first one does so at any rate.
    obtain ⟨m, hm, hreached⟩ := Forwarder.isExhausted_iff.mp hexhausted
    have hfull : (failures ++ [cause]).length = max m 1 := by
      have hless := hbelow m hm
      omega
    rw [if_pos hexhausted]
    refine ⟨hle, iff_of_true rfl ⟨m, hm, hfull⟩, ?_, hlast⟩
    show e.attempts = (failures ++ [cause]).length - 1
    omega
  · have hroom : ¬ ∃ m ∈ r.maxAttempts, (failures ++ [cause]).length = max m 1 := by
      rintro ⟨m, hm, hfull⟩
      exact hexhausted (Forwarder.isExhausted_iff.mpr ⟨m, hm, by omega⟩)
    rw [if_neg hexhausted]
    refine ⟨hle, iff_of_false nofun hroom, ?_, hlast⟩
    show e.attempts + 1 = (failures ++ [cause]).length
    omega

/-- **One dealing of a relay with that limit.** -/
theorem OutboxRow.WithinLimit.deal {past : List Dealing} {r : Forwarder}
    (h : d.leased.WithinLimit limit before (past.filterMap Dealing.failedSend))
    (hrelay : d.poller = .relaying r) (hlimit : r.maxAttempts = limit) :
    d.leaves.WithinLimit limit before ((past ++ [d]).filterMap Dealing.failedSend) := by
  subst hlimit
  rw [List.filterMap_append]
  cases d with
  | attempted | refused => cases hrelay
  | sent r' now row answer settled =>
    cases hrelay
    cases answer with
    | ok id =>
      have hnone : (Dealing.sent r now row (.ok id) settled).failedSend = none := rfl
      rw [List.filterMap_cons_none hnone, List.filterMap_nil, List.append_nil]
      cases settled with
      | error => exact h
      | ok => exact h.of_open nofun nofun rfl rfl
    | error cause =>
      cases settled with
      | error lost =>
        -- The settlement is lost, and the row keeps its lease.
        rw [List.filterMap_cons_none rfl, List.filterMap_nil, List.append_nil]
        exact h
      | ok => exact h.fail

variable {w₀ w : World} {ds : List Dealing} {current : Polling} {id : RowId}

theorem PollRun.withinLimit (h : PollRun w₀ ds current w) (horderly : w₀.store.Orderly)
    (he₀ : w₀.store.rows.find? id = some e₀) (hnew : e₀.attempts = 0)
    (hopen : e₀.status ≠ .failed)
    (hshared : ∀ d ∈ ds, d.row.id = id → ∃ r, d.poller = .relaying r ∧ r.maxAttempts = limit) :
    ∃ e, w.store.rows.find? id = some e ∧ e.WithinLimit limit e₀.lastError (failedSends id ds) := by
  apply h.keeps_row (I := fun past e =>
    e.WithinLimit limit e₀.lastError (past.filterMap Dealing.failedSend))
    horderly he₀ hshared
  · refine ⟨fun m _ => Nat.zero_le _, iff_of_false hopen ?_, ?_, rfl⟩
    · rintro ⟨m, -, hm⟩
      change 0 = max m 1 at hm
      omega
    · rw [hnew, if_neg hopen]
      rfl
  · intro past e now name hI hdue
    simp only [OutboxRow.isDue, decide_eq_true_eq] at hdue
    have hleased : (e.lease now name).status ≠ .failed := by
      show Status.processing ≠ .failed
      decide
    exact hI.of_open (by simp [hdue.1]) hleased rfl rfl
  · intro past e hI hstatus
    have hfreed : e.endLease.status ≠ .failed := by
      show Status.pending ≠ .failed
      decide
    exact hI.of_open (by simp [hstatus]) hfreed rfl rfl
  · rintro past d hI ⟨r, hrelay, hlimit⟩
    exact hI.deal hrelay hlimit

/-- **A row is given up on at the limit.**  In any run of polls, with outages anywhere and
    clocks that show anything, and for any row that is left to relays that share one limit,
    let `c` be the number of its failed sends of which the settlement is committed:

    * with a limit `m`, there are at most `max m 1` of them, the row is given up on exactly
      if there are that many, and its own count is `c`, or `c - 1` once it is given up on;
    * without a limit it is never given up on, and its count is `c`;
    * its last error is what the transport has said at the last of them.

    Every poll of a relay goes on with such a run. -/
theorem rows_given_up_at_limit (horderly : w₀.store.Orderly)
    (he₀ : w₀.store.rows.find? id = some e₀) (hnew : e₀.attempts = 0)
    (hopen : e₀.status ≠ .failed) (h : PollRun w₀ ds current w)
    (hshared : ∀ d ∈ ds, d.row.id = id → ∃ r, d.poller = .relaying r ∧ r.maxAttempts = limit) :
    (∃ e, w.store.rows.find? id = some e ∧
      (∀ m, limit = some m → (failedSends id ds).length ≤ max m 1 ∧
        (e.status = .failed ↔ (failedSends id ds).length = max m 1) ∧
        e.attempts = if e.status = .failed then (failedSends id ds).length - 1
          else (failedSends id ds).length) ∧
      (limit = none → e.status ≠ .failed ∧ e.attempts = (failedSends id ds).length) ∧
      ((failedSends id ds).getLast? = none → e.lastError = e₀.lastError) ∧
      ∀ cause, (failedSends id ds).getLast? = some cause → e.lastError = some cause.message) ∧
    ∀ (r : Forwarder) now result w', r.poll now w = some (result, w') →
      PollRun.GoesOn w₀ ds (.relaying r) now w' := by
  obtain ⟨e, he, hwithin⟩ := h.withinLimit horderly he₀ hnew hopen hshared
  have hlast := hwithin.lastError
  refine ⟨⟨e, he, ?_, ?_, fun hnone => ?_, fun cause hcause => ?_⟩,
    fun r now result w' hpoll => h.forwarderPoll hpoll⟩
  · rintro m rfl
    refine ⟨hwithin.length_le m rfl, ?_, hwithin.attempts⟩
    simpa using hwithin.failed_iff
  · rintro rfl
    have hnever : e.status ≠ .failed := by simpa using hwithin.failed_iff
    refine ⟨hnever, ?_⟩
    rw [hwithin.attempts, if_neg hnever]
  · rw [hlast, hnone]
    rfl
  · rw [hlast, hcause]
    rfl

/-- Of three sends that fail one is not settled, so the limit of two is reached with the
    last of them. -/
theorem rows_given_up_at_limit_settlement_lost :
    ∃ w ds current e cause, transportDown.store.Orderly ∧ PollRun transportDown ds current w ∧
      (∀ d ∈ ds, ∃ r, d.poller = .relaying r ∧ r.maxAttempts = some 2) ∧
      w.store.rows.find? ⟨.versionFour 0⟩ = some e ∧ e.status = .failed ∧ e.attempts = 1 ∧
      (failedSends ⟨.versionFour 0⟩ ds).length = 2 ∧
      (failedSends ⟨.versionFour 0⟩ ds).getLast? = some cause ∧
      e.lastError = some cause.message := by
  have hpolls : (Forwarder.pollThrice { maxAttempts := some 2 }).map (fun w =>
      (w.store.rows.find? ⟨.versionFour 0⟩).map (·.status)) = some (some .failed) := by
    decide +kernel
  obtain ⟨w, hthrice, hrow⟩ := Option.map_eq_some_iff.mp hpolls
  obtain ⟨e, he, hfailed⟩ := Option.map_eq_some_iff.mp hrow
  obtain ⟨ds, current, hrun, hds⟩ := Forwarder.pollThrice_run hthrice
  have hlimit : ∀ d ∈ ds, ∃ r, d.poller = .relaying r ∧ r.maxAttempts = some 2 :=
    fun d hd => ⟨_, hds d hd, rfl⟩
  have hfound : transportDown.store.rows.find? ⟨.versionFour 0⟩ = some _ := rfl
  obtain ⟨⟨e', he', hbounded, -, -, hlast⟩, -⟩ :=
    rows_given_up_at_limit transportDown_orderly hfound rfl nofun hrun fun d hd _ => hlimit d hd
  rw [he, Option.some.injEq] at he'
  subst he'
  obtain ⟨-, hiff, hattempts⟩ := hbounded 2 rfl
  have hcount : (failedSends ⟨.versionFour 0⟩ ds).length = 2 := hiff.mp hfailed
  obtain ⟨cause, hcause⟩ :
      ∃ cause, (failedSends ⟨.versionFour 0⟩ ds).getLast? = some cause := by
    cases hend : (failedSends ⟨.versionFour 0⟩ ds).getLast? with
    | none => simp [List.getLast?_eq_none_iff.mp hend] at hcount
    | some cause => exact ⟨cause, rfl⟩
  refine ⟨w, ds, current, e, cause, transportDown_orderly, hrun, hlimit, he, hfailed, ?_, hcount,
    hcause, hlast cause hcause⟩
  rw [hattempts, if_pos hfailed, hcount]

end limit

end OrderFlow
