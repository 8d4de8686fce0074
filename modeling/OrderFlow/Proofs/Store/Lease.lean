import OrderFlow.Proofs.Store.History

/-! # Claimed rows are leased exclusively

    While the transaction is open that has claimed a row, its row lock keeps
    the row from everybody else.  After its commit the row's status does:
    the row is in processing, and a claim takes rows only that are pending.

    So from the commit on the row is closed (`OutboxRow.Closed`): to what is
    committed and to every open transaction.  Two things open it again, and
    for others only with a commit: a transaction puts the row off, or it
    ends leases from before a limit that is later than this one's
    (`Since.step`).

    Here a claim is one step.  Claims that come to one row after the other, with
    others in between, are just as exclusive (`scans_claim_exclusively`). -/

namespace OrderFlow

/-! ## Closed rows -/

/-- **Closed**: the row is settled, or it is in processing under the lease that
    was taken at `lease`. -/
def OutboxRow.Closed (lease : Option Instant) (e : OutboxRow) : Prop :=
  e.status.isSettled = true ∨
    (e.status = .processing ∧ ∃ moment ∈ lease, e.lockedAt = some moment)

section closed
variable {lease : Option Instant} {e : OutboxRow}

theorem OutboxRow.Closed.not_due (h : e.Closed lease) (now : Instant) : ¬ e.isDue now = true := by
  intro hdue
  have hpending : e.status = .pending := (of_decide_eq_true hdue).1
  rcases h with hs | ⟨hs, -⟩
  · rw [hpending] at hs
    cases hs
  · rw [hpending] at hs
    cases hs

/-- A lease counts as stale only for a later limit. -/
theorem OutboxRow.Closed.before_limit (h : e.Closed lease) {limit : Instant}
    (hstale : e.isStale limit = true) : ∃ moment ∈ lease, moment < limit := by
  obtain ⟨hprocessing, moment, hmoment, hlt⟩ := of_decide_eq_true hstale
  rcases h with hs | ⟨-, m, hm, hlocked⟩
  · rw [hprocessing] at hs
    cases hs
  · have hsame : moment = m := Option.some.inj ((Option.mem_def.mp hmoment).symm.trans hlocked)
    exact ⟨m, hm, hsame ▸ hlt⟩

theorem OutboxRow.closed_complete (e : OutboxRow) (now : Instant) :
    (e.complete now).Closed lease :=
  Or.inl rfl

theorem OutboxRow.closed_giveUp (e : OutboxRow) (now : Instant) (error : String) :
    (e.giveUp now error).Closed lease :=
  Or.inl rfl

/-- Without a lease only a settled row is closed. -/
theorem OutboxRow.closed_none : e.Closed none ↔ e.status.isSettled = true := by
  simp [OutboxRow.Closed]

end closed

namespace Store

/-! ## What may happen, and what opens a row again -/

/-- **The discipline of histories**: no row is enqueued twice, and a
    transaction leases only rows that it has claimed. -/
def Permitted (past : List Entry) : Entry → Prop
  | .asked _ (.writeRow e) _ => ∀ x ∈ past, ¬ x.Enqueues e.id
  | .asked t (.leaseRow id _ _) _ => ∃ x ∈ past, x.Claims t id
  | _ => True

instance (past : List Entry) : (entry : Entry) → Decidable (Permitted past entry)
  | .asked _ (.writeRow e) _ => inferInstanceAs (Decidable (∀ x ∈ past, ¬ x.Enqueues e.id))
  | .asked t (.leaseRow id _ _) _ => inferInstanceAs (Decidable (∃ x ∈ past, x.Claims t id))
  | .asked _ (.holdOrder _) _ | .asked _ (.writeOrder _) _ | .asked _ (.completeRow _ _) _
  | .asked _ (.postponeRow _ _ _) _ | .asked _ (.giveUpRow _ _ _) _
  | .asked _ (.writeLetter _) _ | .asked _ (.dropLetter _) _
  | .started _ | .claimed _ _ | .released _ _ _ | .committed _ _ | .ended _ | .outside =>
    inferInstanceAs (Decidable True)

namespace Entry

/-- Transaction `t` has ended a lease of the row. -/
def Releases (t : TxId) (row : RowId) : Entry → Prop
  | .released u _ rows => u = t ∧ ∃ e ∈ rows, e.id = row
  | _ => False

/-- Transaction `t` has opened the row: it has put it off, or ended its lease
    with a limit later than `lease`. -/
def Reopens (t : TxId) (row : RowId) (lease : Option Instant) : Entry → Prop
  | .asked u (.postponeRow id _ _) (.ok _) => u = t ∧ id = row
  | .released u limit rows => u = t ∧ (∃ moment ∈ lease, moment < limit) ∧ ∃ e ∈ rows, e.id = row
  | _ => False

end Entry

/-- Transaction `t` has opened the row meanwhile. -/
def ReopenedBy (t : TxId) (row : RowId) (lease : Option Instant) (since : List Entry) : Prop :=
  ∃ x ∈ since, x.Reopens t row lease

/-- Some transaction has opened the row meanwhile and then committed. -/
def Reopened (row : RowId) (lease : Option Instant) (since : List Entry) : Prop :=
  ∃ t before x after written, since = before ++ x :: after ∧ x.Reopens t row lease ∧
    .committed t written ∈ after

section reopened
variable {t : TxId} {row : RowId} {lease : Option Instant} {since : List Entry} {entry : Entry}

theorem ReopenedBy.snoc (h : ReopenedBy t row lease since) (entry : Entry) :
    ReopenedBy t row lease (since ++ [entry]) := by
  obtain ⟨x, hx, hr⟩ := h
  exact ⟨x, List.mem_append_left _ hx, hr⟩

theorem Entry.Reopens.reopenedBy (h : entry.Reopens t row lease) :
    ReopenedBy t row lease (since ++ [entry]) :=
  ⟨entry, by simp, h⟩

theorem Reopened.snoc (h : Reopened row lease since) (entry : Entry) :
    Reopened row lease (since ++ [entry]) := by
  obtain ⟨t, before, x, after, written, rfl, hr, hc⟩ := h
  refine ⟨t, before, x, after ++ [entry], written, by simp, hr, List.mem_append_left _ hc⟩

/-- With its commit a transaction opens the row to everybody. -/
theorem ReopenedBy.commit (h : ReopenedBy t row lease since) (written : List OutboxRow) :
    Reopened row lease (since ++ [.committed t written]) := by
  obtain ⟨x, hx, hr⟩ := h
  obtain ⟨before, after, rfl⟩ := List.append_of_mem hx
  exact ⟨t, before, x, after ++ [.committed t written], written, by simp, hr, by simp⟩

end reopened

/-! ## The row since it was closed -/

/-- **Closed since**: what is committed is closed; an open transaction sees the
    row closed, or has opened it itself; and one that has claimed it has
    opened it before. -/
structure Since (row : RowId) (lease : Option Instant) (trail since : List Entry) (s : Store) :
    Prop where
  committed : ∃ e, s.rows.find? row = some e ∧ e.Closed lease
  opened : ∀ {v tx}, s.opened.find? v = some tx →
    (∃ e, s.rowIn tx row = some e ∧ e.Closed lease) ∨ ReopenedBy v row lease since
  claims : ∀ {v tx}, s.opened.find? v = some tx → (∃ x ∈ trail, x.Claims v row) →
    ReopenedBy v row lease since

section since
variable {row : RowId} {lease : Option Instant} {trail since : List Entry} {entry : Entry}
  {s s' : Store} {t : TxId} {tx tx' : Transaction}

/-- **A commit closes the row** to everybody. -/
theorem Kept.since_commit (hk : Kept trail s) (htx : s.opened.find? t = some tx)
    (hclosed : ∃ e ∈ tx.rows.values, e.id = row ∧ e.Closed lease) (written : List OutboxRow) :
    Since row lease (trail ++ [.committed t written]) [] ((s.absorb tx).close t) := by
  have htxo := hk.orderly.each htx
  obtain ⟨e, he, hid, hclosed⟩ := hclosed
  have hstaged : tx.rows.find? row = some e := hid ▸ htxo.rows.mem_values_iff.mp he
  have hheld : LockKey.row row ∈ tx.held := htxo.rowHeld hstaged
  have hview : s.rowIn tx row = some e := by
    unfold rowIn
    rw [hstaged, Option.some_or]
  have hcommitted : (s.absorb tx).rows.find? row = some e := (rows_absorb htxo s row).trans hview
  refine ⟨⟨e, hcommitted, hclosed⟩, ?_, ?_⟩
  · intro v other hv
    obtain ⟨hne, hv⟩ := opened_of_close hv
    -- The others cannot have written the row, whose lock was not theirs.
    have hother : LockKey.row row ∉ other.held :=
      hk.orderly.not_held hv htx (Ne.symm hne) hheld
    rcases hk.orderly.rowIn_absorb htx hv hne row with ⟨hin, -⟩ | ⟨-, -, hsees⟩
    · exact absurd hin hother
    · exact Or.inl ⟨e, hsees.trans hview, hclosed⟩
  · intro v other hv hclaims
    obtain ⟨hne, hv⟩ := opened_of_close hv
    rcases mem_snoc_iff.mp hclaims with hold | hnew
    · exact absurd (hk.held hv hold) (hk.orderly.not_held hv htx (Ne.symm hne) hheld)
    · cases hnew

/-- A step inside a transaction. -/
theorem Since.progress (h : Since row lease trail since s) (hp : Progress t s tx s' tx')
    (hview : ¬ ReopenedBy t row lease since → (∃ e, s.rowIn tx row = some e ∧ e.Closed lease) →
      (∃ e, s.rowIn tx' row = some e ∧ e.Closed lease) ∨ entry.Reopens t row lease)
    (hclaims : ∀ {v}, entry.Claims v row → v = t ∧ ReopenedBy t row lease since) :
    Since row lease (trail ++ [entry]) (since ++ [entry]) s' where
  committed := by
    rw [hp.rows]
    exact h.committed
  opened := by
    intro v tx₁ hv
    rw [← hp.sameTables.rowIn]
    -- Only `t` may see the row otherwise than before.
    by_cases hvt : v = t
    · subst hvt
      rw [hp.after, Option.some.injEq] at hv
      subst hv
      by_cases hopen : ReopenedBy v row lease since
      · exact Or.inr (hopen.snoc entry)
      · have hclosed := (h.opened hp.before).resolve_right hopen
        exact (hview hopen hclosed).imp_right Entry.Reopens.reopenedBy
    · rw [hp.others hvt] at hv
      exact (h.opened hv).imp_right (·.snoc entry)
  claims := by
    intro v tx₁ hv hclaimed
    by_cases hvt : v = t
    · subst hvt
      rcases mem_snoc_iff.mp hclaimed with hold | hnew
      · exact (h.claims hp.before hold).snoc entry
      · exact (hclaims hnew).2.snoc entry
    · rw [hp.others hvt] at hv
      rcases mem_snoc_iff.mp hclaimed with hold | hnew
      · exact (h.claims hv hold).snoc entry
      · exact absurd (hclaims hnew).1 hvt

/-- A transaction has ended, or nothing has happened to any. -/
theorem Since.end (h : Since row lease trail since s)
    (hcommitted : ∃ e, s'.rows.find? row = some e ∧ e.Closed lease)
    (hopened : ∀ {v tx}, s'.opened.find? v = some tx → s.opened.find? v = some tx ∧
      (s'.rowIn tx row = s.rowIn tx row ∨ ∃ e, s'.rowIn tx row = some e ∧ e.Closed lease))
    (hclaims : ∀ v, ¬ entry.Claims v row) :
    Since row lease (trail ++ [entry]) (since ++ [entry]) s' where
  committed := hcommitted
  opened := by
    intro v tx hv
    obtain ⟨hv, hsame | hclosed⟩ := hopened hv
    · rw [hsame]
      exact (h.opened hv).imp_right (·.snoc entry)
    · exact Or.inl hclosed
  claims := by
    intro v tx hv hclaimed
    rcases mem_snoc_iff.mp hclaimed with hold | hnew
    · exact (h.claims (hopened hv).1 hold).snoc entry
    · exact absurd hnew (hclaims v)

/-- What a permitted request makes of a closed row. -/
theorem closed_rowView (hk : Kept trail s) (h : Since row lease trail since s)
    (htx : s.opened.find? t = some tx) {q : Request} {a : Answer}
    (ha : a = (q.act s (tx.hold q.key)).1) (hpermitted : Permitted trail (.asked t q a))
    (hnot : ¬ ReopenedBy t row lease since)
    (hclosed : ∃ e, s.rowIn tx row = some e ∧ e.Closed lease) :
    (∃ e, q.rowView row (s.rowIn tx row) = some e ∧ e.Closed lease) ∨
      Entry.Reopens t row lease (.asked t q a) := by
  obtain ⟨e, he, hclosed⟩ := hclosed
  cases q with
  | writeRow e' =>
    -- The row is there, so it was enqueued, and it is not enqueued again.
    have hne : e'.id ≠ row := by
      rintro rfl
      obtain ⟨x, hx, hnew⟩ := hk.enqueued (current_opened htx) he
      exact hpermitted x hx hnew
    exact Or.inl ⟨e, by simp [Request.rowView, hne, he], hclosed⟩
  | leaseRow id now claimant =>
    have hne : id ≠ row := by
      rintro rfl
      exact hnot (h.claims htx hpermitted)
    exact Or.inl ⟨e, by simp [Request.rowView, hne, he], hclosed⟩
  | completeRow id now =>
    by_cases hid : id = row
    · exact Or.inl ⟨_, by simp [Request.rowView, hid, he], e.closed_complete now⟩
    · exact Or.inl ⟨e, by simp [Request.rowView, hid, he], hclosed⟩
  | giveUpRow id now error =>
    by_cases hid : id = row
    · exact Or.inl ⟨_, by simp [Request.rowView, hid, he], e.closed_giveUp now error⟩
    · exact Or.inl ⟨e, by simp [Request.rowView, hid, he], hclosed⟩
  | postponeRow id next error =>
    by_cases hid : id = row
    · subst hid
      have hdone : a = .ok .done := by
        rw [ha]
        simp only [Request.act, Request.changing, rowIn_hold, he]
      right
      rw [hdone]
      exact ⟨rfl, rfl⟩
    · exact Or.inl ⟨e, by simp [Request.rowView, hid, he], hclosed⟩
  | holdOrder | writeOrder | writeLetter | dropLetter => exact Or.inl ⟨e, he, hclosed⟩

/-- **A closed row is not claimed**, unless the claimant has opened it itself. -/
theorem Since.not_claimed (h : Since row lease trail since s) (ht : Took s entry s') {u : TxId}
    (hclaim : entry.Claims u row) : ReopenedBy u row lease since := by
  cases ht with
  | claimed hrows hp =>
    obtain ⟨rfl, e, he, rfl⟩ := hclaim
    obtain ⟨hseen, ⟨now, hdue⟩, -⟩ := hrows he
    rcases h.opened hp.before with ⟨e', he', hclosed⟩ | hopen
    · rw [hseen, Option.some.injEq] at he'
      exact absurd (he' ▸ hdue) (hclosed.not_due now)
    · exact hopen
  | _ => cases hclaim

/-- **One step** keeps the row closed, or a transaction commits that has
    opened it. -/
theorem Since.step (hk : Kept trail s) (h : Since row lease trail since s)
    (hpermitted : Permitted trail entry) (ht : Took s entry s') :
    Reopened row lease (since ++ [entry]) ∨
      Since row lease (trail ++ [entry]) (since ++ [entry]) s' := by
  cases ht with
  | started =>
    -- What begins now sees what is committed, and has claimed nothing.
    refine Or.inr ⟨h.committed, ?_, ?_⟩
    · intro v tx hv
      rw [opened_begun] at hv
      split at hv
      · cases hv
        exact Or.inl h.committed
      · exact (h.opened hv).imp_right (·.snoc _)
    · intro v tx hv hclaimed
      rcases mem_snoc_iff.mp hclaimed with hold | hnew
      · have hne : s.nextTx ≠ v := Nat.ne_of_gt (hk.begun hold)
        rw [opened_begun, if_neg hne] at hv
        exact (h.claims hv hold).snoc _
      · cases hnew
  | @claimed t tx rows _ hrows hp =>
    refine Or.inr (h.progress hp (fun _ hclosed => Or.inl ?_) ?_)
    · rwa [rowIn_foldl_hold]
    · intro v hnew
      obtain rfl : t = v := hnew.1
      exact ⟨rfl, h.not_claimed (.claimed hrows hp) hnew⟩
  | @released t tx limit rows _ hrows hp =>
    refine Or.inr (h.progress hp (fun _ hclosed => ?_) fun hnew => by cases hnew)
    -- Either the row's lease was ended, or the row is seen as before.
    by_cases hmem : ∃ e ∈ rows, e.id = row
    · right
      obtain ⟨e, he, rfl⟩ := hmem
      obtain ⟨hseen, hstale, -⟩ := hrows he
      obtain ⟨e', he', hclosed⟩ := hclosed
      rw [hseen, Option.some.injEq] at he'
      exact ⟨rfl, (he' ▸ hclosed).before_limit hstale, e, he, rfl⟩
    · left
      have hnot : ∀ e ∈ rows, e.id ≠ row := fun e he hid => hmem ⟨e, he, hid⟩
      rwa [rowIn_putRows_of_not_mem hnot, rowIn_foldl_hold]
  | @asked t tx q _ hp =>
    refine Or.inr (h.progress hp (fun hopen hclosed => ?_) fun hnew => by cases hnew)
    rw [q.rowIn_act]
    exact closed_rowView hk h hp.before rfl hpermitted hopen hclosed
  | @committed t tx htx =>
    have htxo := hk.orderly.each htx
    -- It commits the row as it sees it: closed, or opened by itself.
    rcases h.opened htx with ⟨e, he, hclosed⟩ | hopen
    · right
      refine h.end ⟨e, (rows_absorb htxo s row).trans he, hclosed⟩ ?_ fun v hnew => hnew
      intro v other hv
      obtain ⟨hne, hv⟩ := opened_of_close hv
      refine ⟨hv, ?_⟩
      rcases hk.orderly.rowIn_absorb htx hv hne row with ⟨-, -, -, hsees⟩ | ⟨-, -, hsees⟩
      · exact Or.inl hsees
      · exact Or.inr ⟨e, hsees.trans he, hclosed⟩
    · exact Or.inl (hopen.commit _)
  | @ended t tx htx =>
    refine Or.inr (h.end h.committed (fun hv => ?_) fun v hnew => hnew)
    exact ⟨(opened_of_close hv).2, Or.inl rfl⟩
  | outside b =>
    exact Or.inr (h.end h.committed (fun hv => ⟨hv, Or.inl rfl⟩) fun v hnew => hnew)

end since

/-! ## Over a whole trail -/

section trails
variable {row : RowId} {lease : Option Instant} {trail since rest : List Entry} {x : Entry}
  {s s' : Store} {t u : TxId} {written : List OutboxRow}

/-- Where the row has just been closed by a commit. -/
theorem Happened.since_commit (h : Happened (trail ++ [.committed t written]) s)
    (hclosed : ∃ e ∈ written, e.id = row ∧ e.Closed lease) :
    Since row lease (trail ++ [.committed t written]) [] s := by
  obtain ⟨s₁, h₁, ht⟩ := h.last
  cases ht with
  | committed htx => exact h₁.kept.since_commit htx hclosed _

/-- **Since the commit that closed it** a row has stayed closed, or a
    transaction has committed that had opened it again. -/
theorem Happened.closed_since (h : Happened (trail ++ [.committed t written] ++ since) s)
    (hpermitted : Follows Permitted [] (trail ++ [.committed t written] ++ since))
    (hclosed : ∃ e ∈ written, e.id = row ∧ e.Closed lease) :
    Reopened row lease since ∨
      Since row lease (trail ++ [.committed t written] ++ since) since s := by
  refine h.extend
    (fun since s₀ => Follows Permitted [] (trail ++ [.committed t written] ++ since) →
      Reopened row lease since ∨
        Since row lease (trail ++ [.committed t written] ++ since) since s₀)
    (fun hcommit _ => ?_) (fun h₀ ht ih hpermitted => ?_) hpermitted
  · rw [List.append_nil]
    exact Or.inr (hcommit.since_commit hclosed)
  · rw [← List.append_assoc] at hpermitted ⊢
    rcases ih hpermitted.before with hreopened | hsince
    · exact Or.inl (hreopened.snoc _)
    · exact hsince.step h₀.kept hpermitted.at ht

/-- **A locked row is left alone** by claims and by the release of leases. -/
theorem Took.leaves_locked {tx : Transaction} (ht : Took s x s') (hs : s.Orderly)
    (htx : s.opened.find? t = some tx) (hheld : LockKey.row row ∈ tx.held) (hne : u ≠ t) :
    ¬ x.Claims u row ∧ ¬ x.Releases u row := by
  have hlocked {e : OutboxRow} (hid : e.id = row) :
      ¬ s.lockable u (.row e.id) = true := by
    intro hfree
    exact hne (lockable_iff.mp hfree t (hs.owned.mpr ⟨tx, htx, hid ▸ hheld⟩)).symm
  cases ht with
  | claimed hrows _ =>
    refine ⟨?_, fun hnew => hnew⟩
    rintro ⟨rfl, e, he, hid⟩
    exact hlocked hid (hrows he).2.2
  | released hrows _ =>
    refine ⟨fun hnew => hnew, ?_⟩
    rintro ⟨rfl, e, he, hid⟩
    exact hlocked hid (hrows he).2.2
  | _ => exact ⟨fun hnew => hnew, fun hnew => hnew⟩

/-- The transaction of a claim is open after it. -/
theorem Took.open_of_claims (ht : Took s x s') (hclaim : x.Claims t row) :
    ∃ tx, s'.opened.find? t = some tx := by
  cases ht with
  | claimed _ hp =>
    obtain ⟨rfl, -⟩ := hclaim
    exact ⟨_, hp.after⟩
  | _ => cases hclaim

/-- **Claims are exclusive.**  Let a transaction have claimed a row.  While it
    is open, no other transaction claims the row or ends a lease of it.  And
    once it has committed the row in processing, leased at `moment`, nobody
    claims the row again, unless meanwhile the row was put off, or its lease
    ended with a limit later than `moment`, by a transaction that has
    committed since or by the claimant itself. -/
theorem claims_are_exclusive {history : List Move} {trail : List Entry}
    (h : trace history = some (trail, s)) (hpermitted : Follows Permitted [] trail)
    {past later : List Entry} {claim : Entry} (htrail : trail = past ++ claim :: later)
    (hclaim : claim.Claims t row) :
    (∀ {middle x rest u}, later = middle ++ x :: rest → (∀ y ∈ middle, ¬ y.Ends t) → u ≠ t →
      ¬ x.Claims u row ∧ ¬ x.Releases u row) ∧
    (∀ {middle written moment since x rest u},
      later = middle ++ .committed t written :: (since ++ x :: rest) →
      (∃ e ∈ written, e.id = row ∧ e.status = .processing ∧ e.lockedAt = some moment) →
      x.Claims u row →
      Reopened row (some moment) since ∨ ReopenedBy u row (some moment) since) := by
  have hwhole := happened_of_trace h
  constructor
  · intro middle x rest u hlater hopen hne
    have hsplit : trail = past ++ [claim] ++ middle ++ [x] ++ rest := by
      simp [htrail, hlater]
    rw [hsplit] at hwhole
    obtain ⟨s₁, h₁⟩ := hwhole.before
    obtain ⟨s₀, h₀, ht⟩ := h₁.last
    have hstill : ∃ tx, s₀.opened.find? t = some tx := by
      refine h₀.still_open (fun hpast => ?_) hopen
      obtain ⟨_, _, hclaimed⟩ := hpast.last
      exact hclaimed.open_of_claims hclaim
    obtain ⟨tx, htx⟩ := hstill
    -- The lock that the claim took is held until its transaction ends.
    have hheld : LockKey.row row ∈ tx.held :=
      h₀.kept.held htx ⟨claim, by simp, hclaim⟩
    exact ht.leaves_locked h₀.kept.orderly htx hheld hne
  · rintro middle written moment since x rest u hlater ⟨e, he, hid, hprocessing, hlocked⟩ hagain
    have hclosed : ∃ e ∈ written, e.id = row ∧ e.Closed (some moment) :=
      ⟨e, he, hid, Or.inr ⟨hprocessing, moment, rfl, hlocked⟩⟩
    have hsplit : trail =
        past ++ [claim] ++ middle ++ [.committed t written] ++ since ++ [x] ++ rest := by
      simp [htrail, hlater]
    rw [hsplit] at hwhole hpermitted
    obtain ⟨s₁, h₁⟩ := hwhole.before
    obtain ⟨s₀, h₀, ht⟩ := h₁.last
    exact (h₀.closed_since hpermitted.before.before hclosed).imp_right (·.not_claimed ht hagain)

end trails

/-! ## A lease that is taken over -/

/-- A row that waits to be claimed. -/
def waitingRow : OutboxRow :=
  .fresh ⟨.ofNat 8⟩ ⟨.ofNat 7⟩ OutboxRow.orderCreatedType "" .newYear2024

/-- The row as transaction 3 leases it. -/
def leasedRow : OutboxRow :=
  waitingRow.lease .newYear2024 "slow"

/-- When the lease has become stale. -/
def muchLater : Instant :=
  Instant.newYear2024.later (.ofSeconds 31)

/-- The slow claimant releases, claims and leases; the other one ends that
    lease as stale and claims the row itself. -/
def takenOver : List Move := [
  .event .start,
  .event (.ask 1 (.writeRow waitingRow)),
  .event (.commit 1),
  .event .start,
  .release 2 (Instant.newYear2024.earlier (.ofSeconds 30)),
  .event (.commit 2),
  .event .start,
  .claim 3 5 .newYear2024,
  .event (.ask 3 (.leaseRow waitingRow.id .newYear2024 "slow")),
  .event (.commit 3),
  .event .start,
  .release 4 (muchLater.earlier (.ofSeconds 30)),
  .event (.commit 4),
  .event .start,
  .claim 5 5 muchLater]

/-- What happens up to the claim of the slow claimant. -/
def beforeTheClaim : List Entry := [
  .started 1,
  .asked 1 (.writeRow waitingRow) (.ok .done),
  .committed 1 [waitingRow],
  .started 2,
  .released 2 (Instant.newYear2024.earlier (.ofSeconds 30)) [],
  .committed 2 [],
  .started 3]

/-- What happens between the commit of its lease and the next claim. -/
def betweenTheClaims : List Entry := [
  .started 4,
  .released 4 (muchLater.earlier (.ofSeconds 30)) [leasedRow],
  .committed 4 [leasedRow.endLease],
  .started 5]

/-- What happens altogether. -/
def takenOverTrail : List Entry :=
  beforeTheClaim ++ .claimed 3 [waitingRow] ::
    ([.asked 3 (.leaseRow waitingRow.id .newYear2024 "slow") (.ok .done)] ++
      .committed 3 [leasedRow] :: (betweenTheClaims ++ [.claimed 5 [leasedRow.endLease]]))

theorem claims_are_exclusive_taken_over :
    ∃ s, trace takenOver = some (takenOverTrail, s) ∧ Follows Permitted [] takenOverTrail ∧
      (∃ e ∈ [leasedRow], e.id = waitingRow.id ∧ e.status = .processing ∧
        e.lockedAt = some .newYear2024) ∧
      (Reopened waitingRow.id (some .newYear2024) betweenTheClaims ∨
        ReopenedBy 5 waitingRow.id (some .newYear2024) betweenTheClaims) := by
  have hruns : (trace takenOver).map Prod.fst = some takenOverTrail := rfl
  obtain ⟨⟨_, s⟩, hrun, rfl⟩ := Option.map_eq_some_iff.mp hruns
  have hpermitted : Follows Permitted [] takenOverTrail := by decide
  have hleased : ∃ e ∈ [leasedRow], e.id = waitingRow.id ∧ e.status = .processing ∧
      e.lockedAt = some .newYear2024 := ⟨leasedRow, List.mem_singleton_self _, rfl, rfl, rfl⟩
  have hclaim : (Entry.claimed 3 [waitingRow]).Claims 3 waitingRow.id :=
    ⟨rfl, waitingRow, List.mem_singleton_self _, rfl⟩
  have hagain : (Entry.claimed 5 [leasedRow.endLease]).Claims 5 waitingRow.id :=
    ⟨rfl, leasedRow.endLease, List.mem_singleton_self _, rfl⟩
  exact ⟨s, hrun, hpermitted, hleased,
    (claims_are_exclusive hrun hpermitted rfl hclaim).2 rfl hleased hagain⟩

end Store

end OrderFlow
