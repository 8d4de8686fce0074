import OrderFlow.Proofs.Run.Letters

/-! # Retry counts

    The count of an order says how many attempts on it have failed and were
    committed, since it was accepted: a readmission does not set it back.

    Where every attempt is one out of `m`, an order is given up on with its
    attempt number `m`.  After a readmission the count still stands at `m`,
    so the order has a single attempt, and fails again if that one fails.
    Hence the count can be read off the number of readmissions
    (`Life.accounted`). -/

namespace OrderFlow

open World

variable {w w' : World} {j j' : Journal} {id : OrderId} {m : Nat}

/-! ## Lives -/

/-- Is it a failed attempt? -/
def Change.isFailure : Change → Bool
  | .postponed _ | .givenUp _ => true
  | _ => false

/-- **The count that goes with a status** after so many readmissions, if every
    attempt is one out of `m`. -/
structure Accounted (m readmissions : Nat) (status : Status) (n : Nat) : Prop where
  failed : status = .failed → n = m + readmissions
  again : status ≠ .failed → 1 ≤ readmissions → n = m + readmissions - 1
  first : status ≠ .failed → readmissions = 0 → n < m

section lives
variable {history : List Change} {status : Status} {n : Nat}

theorem Life.ne_nil (h : Life history status n) : history ≠ [] := by
  cases h <;> simp

/-- The count is the number of failed attempts. -/
theorem Life.count_eq (h : Life history status n) : n = history.countP Change.isFailure := by
  induction h with
  | accepted => rfl
  | completed _ ih | postponed _ _ ih | givenUp _ _ ih | readmitted _ ih =>
    simpa [Change.isFailure] using ih

/-- **The count follows from the readmissions.** -/
theorem Life.accounted (h : Life history status n) (hm : 1 ≤ m)
    (hwithin : ∀ c ∈ history, c.Within (· = m)) :
    Accounted m (history.count .readmitted) status n := by
  induction h with
  | accepted => exact ⟨by simp, by simp, fun _ _ => hm⟩
  | @completed history n _ ih =>
    obtain ⟨-, hagain, hfirst⟩ := ih fun c hc => hwithin c (List.mem_append_left _ hc)
    have hsame : (history ++ [Change.completed]).count .readmitted =
        history.count .readmitted := by simp
    rw [hsame]
    exact ⟨by simp, fun _ => hagain (by simp), fun _ => hfirst (by simp)⟩
  | @postponed history n m' _ hlt ih =>
    obtain rfl : m' = m := hwithin (.postponed m') (by simp)
    obtain ⟨-, hagain, -⟩ := ih fun c hc => hwithin c (List.mem_append_left _ hc)
    have hsame : (history ++ [Change.postponed m']).count .readmitted =
        history.count .readmitted := by simp
    rw [hsame]
    -- After a readmission a failed attempt is the last.
    exact ⟨by simp, fun _ hk => by have := hagain (by simp) hk; omega, fun _ _ => hlt⟩
  | @givenUp history n m' _ hle ih =>
    obtain rfl : m' = m := hwithin (.givenUp m') (by simp)
    obtain ⟨-, hagain, hfirst⟩ := ih fun c hc => hwithin c (List.mem_append_left _ hc)
    have hsame : (history ++ [Change.givenUp m']).count .readmitted =
        history.count .readmitted := by simp
    rw [hsame]
    refine ⟨fun _ => ?_, by simp, by simp⟩
    rcases Nat.eq_zero_or_pos (history.count .readmitted) with hk | hk
    · have hbelow := hfirst (by simp) hk
      omega
    · have hcount := hagain (by simp) hk
      omega
  | @readmitted history n _ ih =>
    obtain ⟨hfailed, -, -⟩ := ih fun c hc => hwithin c (List.mem_append_left _ hc)
    have hmore : (history ++ [Change.readmitted]).count .readmitted =
        history.count .readmitted + 1 := by simp
    rw [hmore]
    exact ⟨by simp, fun _ _ => hfailed rfl, by simp⟩

end lives

/-! ## What is committed -/

namespace Journal

variable {t : TxId}

@[simp] theorem committed_noteAccept (j : Journal)
    (r : Except OperationError (OrderId × List Signal)) :
    (j.noteAccept t r).committed = j.committed := by
  cases r <;> rfl

@[simp] theorem committed_noteReadmit (j : Journal) (r : Except OperationError (List Signal)) :
    (j.noteReadmit t id r).committed = j.committed := by
  cases r <;> rfl

@[simp] theorem committed_noteAttempt (j : Journal) (called : Bool)
    (r : Except OperationError Outcome) :
    (j.noteAttempt t id m called r).committed = j.committed := by
  cases r with
  | ok outcome => cases called <;> rfl
  | error => rfl

end Journal

/-- What is committed is never taken back. -/
theorem Step.committed {c c' : World × Journal} (h : Step c c') (id : OrderId) :
    ∃ more, c'.2.committed id = c.2.committed id ++ more := by
  cases h with
  | @commit _ _ j t r =>
    cases r with
    | ok => exact ⟨j.staged t id, rfl⟩
    | error => exact ⟨[], (List.append_nil _).symm⟩
  | abandon => exact ⟨[], (List.append_nil _).symm⟩
  | _ => exact ⟨[], by simp⟩

theorem Steps.committed {c c' : World × Journal} (h : Steps c c') (id : OrderId) :
    ∃ more, c'.2.committed id = c.2.committed id ++ more := by
  induction h with
  | refl => exact ⟨[], (List.append_nil _).symm⟩
  | tail _ hstep ih =>
    obtain ⟨more, hmore⟩ := ih
    obtain ⟨more', hmore'⟩ := hstep.committed id
    exact ⟨more ++ more', by rw [hmore', hmore, List.append_assoc]⟩

/-- **Over any part of a run** the count of an order goes up by the failed
    attempts that are committed in it. -/
theorem Reached.count_steps (h : Reached w j) (hsteps : Steps (w, j) (w', j'))
    (hids : w'.ids.Lasts) {o : Order} (ho : w.store.orders.find? id = some o) :
    ∃ o' more, w'.store.orders.find? id = some o' ∧
      j'.committed id = j.committed id ++ more ∧
      o'.retryCount = o.retryCount + more.countP Change.isFailure := by
  have hids₀ : w.ids.Lasts := hids.mono (hsteps.effects h.orderly).ids_le
  have htells := (h.ledger hids₀).committed id
  rw [ho] at htells
  have hlife : Life (j.committed id) o.status o.retryCount := htells
  have htells' := ((h.steps hsteps).ledger hids).committed id
  obtain ⟨more, hmore⟩ := hsteps.committed id
  cases ho' : w'.store.orders.find? id with
  | none =>
    -- Something was committed of the order, so it is still there.
    rw [ho'] at htells'
    have hnil : j.committed id ++ more = [] := hmore.symm.trans htells'
    exact absurd (List.append_eq_nil_iff.mp hnil).1 hlife.ne_nil
  | some o' =>
    rw [ho'] at htells'
    have hlife' : Life (j'.committed id) o'.status o'.retryCount := htells'
    refine ⟨o', more, rfl, hmore, ?_⟩
    rw [hlife'.count_eq, hmore, List.countP_append, ← hlife.count_eq]

/-! ## Attempts in transactions of their own -/

/-- **How an attempt is counted**, between the orders that it has found and
    those that it leaves: if it was made on a pending order, has failed and is
    committed, the order's count goes up by one, and otherwise no count
    changes. -/
def Counted (id : OrderId) (before after : OrderId → Option Order) :
    Except OperationError Outcome → Prop
  | .error _ => ∀ i, after i = before i
  | .ok outcome =>
    ((outcome = .processed ∨ ∀ o, before id = some o → o.status ≠ .pending) ∧
        ∀ i, (after i).map (·.retryCount) = (before i).map (·.retryCount)) ∨
      (outcome ≠ .processed ∧
        (∃ o o', before id = some o ∧ o.status = .pending ∧ after id = some o' ∧
          o'.retryCount = o.retryCount + 1) ∧
        ∀ i, i ≠ id → after i = before i)

section attempts
variable {t : TxId} {tx : Transaction} {now : Instant}

theorem processIn_counted {r : Except OperationError Outcome} (hw : w.store.Orderly)
    (htx : w.store.opened.find? t = some tx) (h : processIn t id now m w = some (r, w')) :
    ∃ called tx', Works t called w tx w' tx' ∧ tx'.Orderly ∧
      Counted id (w.store.orderIn tx) (w.store.orderIn tx') r := by
  have htxo := (hw.each htx).hold (.order id)
  obtain ⟨tx₁, ⟨-, rfl, hworks⟩ | ⟨o, ho, hstatus, rfl, hworks⟩ |
    ⟨o, outcome, tx', ho, rfl, hpending, rfl, ha, hworks⟩⟩ := processIn_works hw h
  all_goals obtain rfl := hworks.store.tx_eq htx
  · exact ⟨_, _, hworks, htxo, fun i => by simp⟩
  · refine ⟨_, _, hworks, htxo, Or.inl ⟨Or.inr fun o' ho' => ?_, fun i => by simp⟩⟩
    rw [ho, Option.some.injEq] at ho'
    exact ho' ▸ hstatus
  · refine ⟨_, tx', hworks, ha.orderly htxo Transaction.mem_held_self, ?_⟩
    cases ha with
    | processed =>
      refine Or.inl ⟨Or.inl rfl, fun i => ?_⟩
      by_cases hi : o.id = i
      · subst hi
        rw [Store.orderIn_putOrder, if_pos (Order.tried_id _ _ _), ho]
        rfl
      · simp [hi]
    | retry reason _ =>
      refine Or.inr ⟨by simp, ⟨o, o.tried now (.scheduleRetry reason), ho, hpending, ?_, rfl⟩,
        fun i hi => by simp [Ne.symm hi]⟩
      rw [Store.orderIn_putOrder, if_pos (Order.tried_id _ _ _)]
    | failed reason _ =>
      refine Or.inr ⟨by simp, ⟨o, o.tried now (.fail reason), ho, hpending, ?_, rfl⟩,
        fun i hi => by simp [Ne.symm hi]⟩
      rw [Store.orderIn_putLetter, Store.orderIn_hold, Store.orderIn_putOrder,
        if_pos (Order.tried_id _ _ _)]

/-- A transaction of its own whose body makes an attempt. -/
theorem Call.transact_counted {body : TxId → Call Outcome} {r : Except OperationError Outcome}
    (horderly : w.store.Orderly)
    (hbody : ∀ {t w₁ w₂ rb}, w₁.store.Orderly → w₁.store.opened.find? t = some {} →
      body t w₁ = some (rb, w₂) → ∃ called tx', Works t called w₁ {} w₂ tx' ∧ tx'.Orderly ∧
        ∀ outcome, rb = .ok outcome →
          Counted id (w₁.store.orderIn {}) (w₁.store.orderIn tx') (.ok outcome))
    (h : transact body w = some (r, w')) :
    Counted id w.store.orders.find? w'.store.orders.find? r := by
  obtain ⟨e, hstart, rfl⟩ | ⟨t, w₁, hstart, hrest⟩ := transact_eq_some h
  · obtain ⟨-, helse⟩ := start_error hstart
    intro i
    rw [helse.sameTables.orders]
  obtain ⟨hopened, hsame, -, hkeep⟩ := start_ok hstart
  -- The transaction has found what was committed.
  have hbefore : w₁.store.orderIn {} = w.store.orders.find? := by
    rw [hsame.orders]
    rfl
  obtain ⟨outcome, w₂, r', hrun, hcommit, rfl⟩ | ⟨e, w₂, hrun, habandon, rfl⟩ := hrest
  · obtain ⟨called, tx', hworks, htx', hcounted⟩ := hbody (hkeep horderly) hopened hrun
    have hsame₂ := hsame.trans hworks.store.sameTables
    obtain ⟨-, ⟨rfl, hsame₃⟩ | ⟨rfl, hsame₃⟩⟩ := commit_ends hworks.store.after hcommit
    · have hafter : w₁.store.orderIn tx' = w'.store.orders.find? := by
        funext i
        rw [← hsame₃.orders, Store.orders_absorb htx', hworks.store.sameTables.orderIn]
      have hbody := hcounted outcome rfl
      rw [hbefore, hafter] at hbody
      exact hbody
    · intro i
      rw [hsame₂.orders, hsame₃.orders]
  · obtain ⟨called, tx', hworks, -⟩ := hbody (hkeep horderly) hopened hrun
    obtain ⟨tx, -, -, rfl⟩ := abandon_eq_some habandon
    intro i
    rw [(hsame.trans hworks.store.sameTables).orders]
    rfl

theorem process_counted {r : Except OperationError Outcome} (horderly : w.store.Orderly)
    (h : process id m w = some (r, w')) :
    Counted id w.store.orders.find? w'.store.orders.find? r := by
  refine Call.transact_counted horderly (fun horderly hopened hrun => ?_) h
  obtain ⟨called, tx', hworks, htx', hcounted⟩ := processIn_counted horderly hopened hrun
  exact ⟨called, tx', hworks, htx', fun _ hr => hr ▸ hcounted⟩

/-- The attempt on the order of an outbox row. -/
theorem settle_counted {p : OutboxProcessor} {e : OutboxRow} {r : Except OperationError Outcome}
    (horderly : w.store.Orderly) (h : p.settle e now w = some (r, w')) :
    Counted e.order w.store.orders.find? w'.store.orders.find? r := by
  refine Call.transact_counted horderly (fun {t w₁ w₂ rb} horderly hopened hrun => ?_) h
  obtain ⟨outcome, w₃, rs, hprocess, hsettle, rfl⟩ | ⟨cause, hprocess, rfl⟩ :=
    OutboxProcessor.settleIn_eq_some hrun
  · obtain ⟨called, tx₁, hworks, htx₁, hcounted⟩ := processIn_counted horderly hopened hprocess
    -- The row is changed on top of the attempt, and no order with it.
    obtain ⟨tx₂, tx', hrow, htx', horders, -⟩ :=
      (OnRows.changeRow e.id _ (p.settled_keepsId e now outcome)).works hsettle
        (horderly.progress hworks.store htx₁)
    obtain rfl := hrow.store.tx_eq hworks.store.after
    have hsame : w₁.store.orderIn tx' = w₁.store.orderIn tx₂ :=
      funext fun i => Store.orderIn_congr (congrArg (·.find? i) horders)
    refine ⟨_, tx', hworks.trans hrow, htx', fun outcome' hr => ?_⟩
    cases rs with
    | ok =>
      cases hr
      rw [hsame]
      exact hcounted
    | error => cases hr
  · obtain ⟨called, tx', hworks, htx', -⟩ := processIn_counted horderly hopened hprocess
    exact ⟨called, tx', hworks, htx', fun _ hr => by cases hr⟩

/-- The attempt on the order of a message. -/
theorem handle_counted {c : MessageConsumer} {d : Delivery} {r : Except OperationError Reception}
    (horderly : w.store.Orderly) (h : c.handle d id w = some (r, w')) :
    ∃ r₁, Counted id w.store.orders.find? w'.store.orders.find? r₁ ∧
      r = .ok (match r₁ with
        | .ok outcome => .attempted outcome
        | .error _ => .errored) := by
  obtain ⟨r₁, w₁, hprocess, hrest⟩ := Attempt.outcome_bind_eq_some h
  have hcounted := process_counted horderly hprocess
  refine ⟨r₁, ?_⟩
  split at hrest
  · obtain ⟨r₂, w₂, hack, hpure⟩ := Attempt.outcome_bind_eq_some hrest
    cases hpure
    rw [← (Call.moves_acknowledge _ _ _ _ hack).sameTables.orders]
    exact ⟨hcounted, rfl⟩
  · cases hrest
    exact ⟨hcounted, rfl⟩
  · cases hrest
    exact ⟨hcounted, rfl⟩

/-- **Attempts on an order are counted alike**, whichever way its signal comes:
    directly or from the queue, from an outbox row, or in a message. -/
structure AttemptsCounted (w : World) (id : OrderId) : Prop where
  attempt : ∀ {m r w'}, process id m w = some (r, w') →
    Counted id w.store.orders.find? w'.store.orders.find? r
  settle : ∀ {p : OutboxProcessor} {e now r w'}, e.order = id → p.settle e now w = some (r, w') →
    Counted id w.store.orders.find? w'.store.orders.find? r
  handle : ∀ {c : MessageConsumer} {d r w'}, c.handle d id w = some (r, w') →
    ∃ r₁, Counted id w.store.orders.find? w'.store.orders.find? r₁ ∧
      r = .ok (match r₁ with
        | .ok outcome => .attempted outcome
        | .error _ => .errored)

end attempts

/-- **Retry counts add up.**  In every run in which every attempt is one out of
    `m`, however it goes and wherever it has got to:

    * an order's count is the number of its failed attempts that were
      committed since it was accepted, and goes with its status and the
      number of its readmissions;
    * whatever steps follow, the count goes up by the failed attempts that
      they commit;
    * so an attempt in a transaction of its own raises the count of a pending
      order by one if it has failed and is committed, and changes no count if
      it is rolled back, comes twice, or succeeds.

    Whatever actions follow, as long as their attempts are out of `m` as well,
    they are such steps. -/
theorem retry_counts_add_up (h : Reached w j) (hids : w.ids.Lasts) (hm : 1 ≤ m)
    (hwithin : j.Within (· = m)) :
    (∀ id o, w.store.orders.find? id = some o →
      o.retryCount = (j.committed id).countP Change.isFailure ∧
        Accounted m ((j.committed id).count .readmitted) o.status o.retryCount) ∧
    (∀ w' j', Steps (w, j) (w', j') → w'.ids.Lasts → ∀ id o,
      w.store.orders.find? id = some o →
        ∃ o' more, w'.store.orders.find? id = some o' ∧
          j'.committed id = j.committed id ++ more ∧
          o'.retryCount = o.retryCount + more.countP Change.isFailure) ∧
    (∀ id, AttemptsCounted w id) ∧
    ∀ actions w', (∀ a ∈ actions, ∀ k ∈ a.maxRetries?, k = m) → w.play actions = some w' →
      ∃ j', Steps (w, j) (w', j') ∧ Reached w' j' ∧ j'.Within (· = m) := by
  refine ⟨?_, ?_, ?_, ?_⟩
  · intro id o ho
    have htells := (h.ledger hids).committed id
    rw [ho] at htells
    have hlife : Life (j.committed id) o.status o.retryCount := htells
    exact ⟨hlife.count_eq, hlife.accounted hm fun _ hc => hwithin.committed hc⟩
  · intro w' j' hsteps hids' id o ho
    exact h.count_steps hsteps hids' ho
  · intro id
    refine ⟨fun hprocess => process_counted h.orderly hprocess, ?_,
      fun hhandle => handle_counted h.orderly hhandle⟩
    rintro p e now r w' rfl hsettle
    exact settle_counted h.orderly hsettle
  · intro actions w' hlimit hplay
    obtain ⟨j', hsteps, hwithin'⟩ := World.play_continues hlimit hplay j hwithin
    exact ⟨j', hsteps, h.steps hsteps, hwithin'⟩

/-- Out of two attempts an order fails, is readmitted and fails again. -/
def failingTwice : List Action := [
  .accept .inMemory none,
  .process ⟨.versionFour 0⟩ 2,
  .process ⟨.versionFour 0⟩ 2,
  Action.readmit .inMemory ⟨.versionFour 0⟩,
  .process ⟨.versionFour 0⟩ 2]

theorem retry_counts_add_up_failing :
    ∃ w j, Reached w j ∧ w.ids.Lasts ∧ 1 ≤ 2 ∧ j.Within (· = 2) ∧
      ∃ o, w.store.orders.find? ⟨.versionFour 0⟩ = some o ∧ o.status = .failed ∧
        o.retryCount = 3 ∧ (j.committed ⟨.versionFour 0⟩).count .readmitted = 1 := by
  have hplay : (World.play { processor := .simulated .always 0 } failingTwice).map
      (fun w => ((w.store.orders.find? ⟨.versionFour 0⟩).map fun o => (o.status, o.retryCount),
        w.ids.next)) =
      some (some (.failed, 3), 1) := by
    decide +kernel
  obtain ⟨w, hw, heq⟩ := Option.map_eq_some_iff.mp hplay
  obtain ⟨hfound, hnext⟩ := Prod.mk.inj heq
  obtain ⟨o, ho, heq⟩ := Option.map_eq_some_iff.mp hfound
  obtain ⟨hstatus, hcount⟩ := Prod.mk.inj heq
  have hlimit : ∀ a ∈ failingTwice, ∀ k ∈ a.maxRetries?, k = 2 := by
    simp [failingTwice, Action.maxRetries?]
  obtain ⟨j, hsteps, hwithin⟩ :=
    World.play_continues hlimit hw {} Journal.within_empty
  have hreached : Reached w j := (reached_empty rfl).steps hsteps
  have hids : w.ids.Lasts := by
    unfold IdSupply.Lasts
    omega
  have haccounted := ((retry_counts_add_up hreached hids (by decide) hwithin).1 _ o ho).2
  have hfailed := haccounted.failed hstatus
  exact ⟨w, j, hreached, hids, by decide, hwithin, o, ho, hstatus, hcount, by omega⟩

end OrderFlow
