import OrderFlow.Proofs.Store.Lease

/-! # Settled rows

    A worker ends stale leases in one transaction, claims and leases rows in
    a second, and settles each of its rows in a later one: as done, as given
    up on, or by putting it off.

    A settlement is made whether or not the worker still has the lease.  So
    a settled row need not stay settled: a worker whose lease was ended as
    stale, and whose row another one has settled since, opens the row again
    when it puts it off late (`settled_rows_reopen`).  This is the only way:
    a settled row stays settled until a worker puts it off that had claimed
    it before it was settled and had not settled it itself
    (`settled_rows_stay_settled`). -/

namespace OrderFlow.Store

/-! ## Workers -/

/-- What a worker's transaction is for. -/
inductive Duty where
  /-- To end stale leases. -/
  | release
  /-- To claim and lease rows. -/
  | claim
  /-- To settle rows. -/
  | settle
  deriving DecidableEq

namespace Entry

/-- The transaction and what it does in this step for a worker. -/
def duty : Entry → Option (TxId × Duty)
  | .released t _ _ => some (t, .release)
  | .claimed t _ | .asked t (.leaseRow _ _ _) _ => some (t, .claim)
  | .asked t (.completeRow _ _) _ | .asked t (.postponeRow _ _ _) _
  | .asked t (.giveUpRow _ _ _) _ => some (t, .settle)
  | _ => none

/-- The two steps are not of one transaction with two duties. -/
def Agrees (x y : Entry) : Prop :=
  ∀ p ∈ x.duty, ∀ q ∈ y.duty, p.1 = q.1 → p.2 = q.2

/-- The row is settled for the claim that transaction `c` has made.  The
    claims that the settlements are for are given by `claimOf`. -/
def Settles (claimOf : TxId → RowId → TxId) (c : TxId) (row : RowId) : Entry → Prop
  | .asked t (.completeRow id _) _ | .asked t (.postponeRow id _ _) _
  | .asked t (.giveUpRow id _ _) _ => id = row ∧ claimOf t row = c
  | _ => False

/-- Transaction `t` has put the row off. -/
def PutsOff (t : TxId) (row : RowId) : Entry → Prop
  | .asked u (.postponeRow id _ _) (.ok _) => u = t ∧ id = row
  | _ => False

/-- Transaction `t` has committed. -/
def Commits (t : TxId) : Entry → Prop
  | .committed u _ => u = t
  | _ => False

instance (x y : Entry) : Decidable (x.Agrees y) := by
  unfold Agrees
  infer_instance

instance (claimOf : TxId → RowId → TxId) (c : TxId) (row : RowId) (x : Entry) :
    Decidable (x.Settles claimOf c row) := by
  unfold Settles
  split <;> infer_instance

instance (t : TxId) : (x : Entry) → Decidable (x.Commits t)
  | .committed u _ => inferInstanceAs (Decidable (u = t))
  | .started _ | .claimed _ _ | .released _ _ _ | .asked _ _ _ | .ended _ | .outside =>
    inferInstanceAs (Decidable False)

end Entry

/-- Transaction `c` has claimed and leased the row and has committed. -/
def LeasedIn (past : List Entry) (c : TxId) (row : RowId) : Prop :=
  (∃ x ∈ past, x.Claims c row) ∧ (∃ x ∈ past, x.Leases c row) ∧ ∃ x ∈ past, x.Commits c

/-- **The protocol of workers.**  No transaction has two duties; no row is
    enqueued twice; rows are leased where they are claimed; and a row is
    settled once for each claim of it, after the claim was committed. -/
def Protocol (claimOf : TxId → RowId → TxId) (past : List Entry) (entry : Entry) : Prop :=
  (∀ x ∈ past, x.Agrees entry) ∧
    match entry with
    | .asked _ (.writeRow e) _ => ∀ x ∈ past, ¬ x.Enqueues e.id
    | .asked t (.leaseRow id _ _) _ => ∃ x ∈ past, x.Claims t id
    | .asked t (.completeRow id _) _ | .asked t (.postponeRow id _ _) _
    | .asked t (.giveUpRow id _ _) _ =>
      LeasedIn past (claimOf t id) id ∧ ∀ x ∈ past, ¬ x.Settles claimOf (claimOf t id) id
    | _ => True

instance (past : List Entry) (c : TxId) (row : RowId) : Decidable (LeasedIn past c row) := by
  unfold LeasedIn
  infer_instance

instance (claimOf : TxId → RowId → TxId) (past : List Entry) (entry : Entry) :
    Decidable (Protocol claimOf past entry) :=
  @instDecidableAnd _ _ (inferInstanceAs (Decidable (∀ x ∈ past, x.Agrees entry))) <|
    match entry with
    | .asked _ (.writeRow e) _ => inferInstanceAs (Decidable (∀ x ∈ past, ¬ x.Enqueues e.id))
    | .asked t (.leaseRow id _ _) _ => inferInstanceAs (Decidable (∃ x ∈ past, x.Claims t id))
    | .asked t (.completeRow id _) _ | .asked t (.postponeRow id _ _) _
    | .asked t (.giveUpRow id _ _) _ =>
      inferInstanceAs (Decidable (LeasedIn past (claimOf t id) id ∧
        ∀ x ∈ past, ¬ x.Settles claimOf (claimOf t id) id))
    | .asked _ (.holdOrder _) _ | .asked _ (.writeOrder _) _ | .asked _ (.writeLetter _) _
    | .asked _ (.dropLetter _) _ | .started _ | .claimed _ _ | .released _ _ _
    | .committed _ _ | .ended _ | .outside => inferInstanceAs (Decidable True)

/-- **A late return.**  After the settlement somebody has put the row off and
    has committed that, for a claim made before the settlement that nobody had
    settled until then. -/
def ReturnedLate (claimOf : TxId → RowId → TxId) (row : RowId) (past since : List Entry) :
    Prop :=
  ∃ t before x after written, since = before ++ x :: after ∧ x.PutsOff t row ∧
    .committed t written ∈ after ∧ (∃ y ∈ past, y.Claims (claimOf t row) row) ∧
    ∀ y ∈ past ++ before, ¬ y.Settles claimOf (claimOf t row) row

section protocol
variable {claimOf : TxId → RowId → TxId} {t : TxId} {row : RowId}
  {past since : List Entry} {entry : Entry} {s s' : Store}

theorem Protocol.permitted (h : Protocol claimOf past entry) : Permitted past entry := by
  unfold Permitted
  split
  · exact h.2
  · exact h.2
  · trivial

theorem ReturnedLate.snoc (h : ReturnedLate claimOf row past since) (entry : Entry) :
    ReturnedLate claimOf row past (since ++ [entry]) := by
  obtain ⟨t, before, x, after, written, rfl, hputs, hcommit, hclaim, hnot⟩ := h
  exact ⟨t, before, x, after ++ [entry], written, by simp, hputs,
    List.mem_append_left _ hcommit, hclaim, hnot⟩

/-- Without a lease a row is opened only by being put off. -/
theorem Entry.Reopens.putsOff (h : entry.Reopens t row none) : entry.PutsOff t row := by
  unfold Entry.Reopens at h
  split at h
  · exact h
  · obtain ⟨-, ⟨moment, hmoment, -⟩, -⟩ := h
    cases hmoment
  · cases h

theorem Entry.Claims.duty_eq (h : entry.Claims t row) : entry.duty = some (t, .claim) := by
  unfold Entry.Claims at h
  split at h
  · rw [← h.1]
    rfl
  · cases h

theorem Entry.PutsOff.duty_eq (h : entry.PutsOff t row) : entry.duty = some (t, .settle) := by
  unfold Entry.PutsOff at h
  split at h
  · rw [← h.1]
    rfl
  · cases h

/-- What puts a row off is for an unsettled claim of it. -/
theorem Protocol.of_putsOff (h : Protocol claimOf past entry) (hputs : entry.PutsOff t row) :
    LeasedIn past (claimOf t row) row ∧ ∀ x ∈ past, ¬ x.Settles claimOf (claimOf t row) row := by
  unfold Entry.PutsOff at hputs
  split at hputs
  · obtain ⟨rfl, rfl⟩ := hputs
    exact h.2
  · cases hputs

/-- A settled row is not claimed, for those who claim have put nothing off. -/
theorem Since.unclaimed {trail : List Entry} (h : Since row none trail since s)
    (ht : Took s entry s') (hprotocol : Protocol claimOf trail entry)
    (hsub : ∀ x ∈ since, x ∈ trail) (c : TxId) : ¬ entry.Claims c row := by
  intro hclaim
  obtain ⟨x, hx, hreopens⟩ := h.not_claimed ht hclaim
  have hduty := hprotocol.1 x (hsub x hx) _ hreopens.putsOff.duty_eq _ hclaim.duty_eq rfl
  cases hduty

/-- **Since the commit that settled it** a row has stayed settled and was not
    claimed, or somebody has returned late. -/
theorem Happened.settled_since {settled : List OutboxRow}
    (h : Happened (past ++ [.committed t settled] ++ since) s)
    (hprotocol : Follows (Protocol claimOf) [] (past ++ [.committed t settled] ++ since))
    (hsettled : ∃ e ∈ settled, e.id = row ∧ e.Closed none) :
    ReturnedLate claimOf row past since ∨
      (Since row none (past ++ [.committed t settled] ++ since) since s ∧
        ∀ x ∈ since, ∀ c, ¬ x.Claims c row) := by
  refine h.extend
    (fun since s₀ => Follows (Protocol claimOf) [] (past ++ [.committed t settled] ++ since) →
      ReturnedLate claimOf row past since ∨
        (Since row none (past ++ [.committed t settled] ++ since) since s₀ ∧
          ∀ x ∈ since, ∀ c, ¬ x.Claims c row))
    (fun hcommit _ => ?_) (fun {since x s₀ s₁} h₀ ht ih hprotocol => ?_) hprotocol
  · rw [List.append_nil]
    exact Or.inr ⟨hcommit.since_commit hsettled, by simp⟩
  · have hassoc := List.append_assoc (past ++ [.committed t settled]) since [x]
    have hlast : Protocol claimOf (past ++ [.committed t settled] ++ since) x :=
      (hassoc ▸ hprotocol).at
    rcases ih (hassoc ▸ hprotocol).before with hlate | ⟨hsince, hnone⟩
    · exact Or.inl (hlate.snoc x)
    -- As long as nobody has returned late, nobody claims the row.
    have hnone' : ∀ y ∈ since ++ [x], ∀ c, ¬ y.Claims c row := by
      intro y hy c
      rcases List.mem_append.mp hy with hy | hy
      · exact hnone y hy c
      · obtain rfl := List.mem_singleton.mp hy
        exact hsince.unclaimed ht hlast (fun z hz => List.mem_append_right _ hz) c
    rcases hsince.step h₀.kept hlast.permitted ht with hreopened | hsince'
    · left
      obtain ⟨u, before, y, after, written, hsplit, hreopens, hcommit⟩ := hreopened
      have hputs := hreopens.putsOff
      rw [hsplit, ← List.append_assoc] at hprotocol
      obtain ⟨⟨⟨z, hz, hclaim⟩, -, -⟩, hunsettled⟩ := hprotocol.at.of_putsOff hputs
      refine ⟨u, before, y, after, written, hsplit, hputs, hcommit, ⟨z, ?_, hclaim⟩, ?_⟩
      · -- The claim was not made since, for nobody has claimed the row since.
        rcases List.mem_append.mp hz with hz | hz
        · rcases List.mem_append.mp hz with hz | hz
          · exact hz
          · obtain rfl := List.mem_singleton.mp hz
            cases hclaim
        · refine absurd hclaim (hnone' z ?_ _)
          rw [hsplit]
          exact List.mem_append_left _ hz
      · intro z hz
        refine hunsettled z ?_
        rcases List.mem_append.mp hz with hz | hz
        · exact List.mem_append_left _ (List.mem_append_left _ hz)
        · exact List.mem_append_right _ hz
    · exact Or.inr ⟨hassoc ▸ hsince', hnone'⟩

/-- **Settled rows stay settled**, until somebody returns late: puts the row
    off for a claim that is older than the settlement and had not been
    settled.  In particular no claim and no release of stale leases opens a
    settled row, and no other late settlement. -/
theorem settled_rows_stay_settled {history : List Move} {trail : List Entry}
    (h : trace history = some (trail, s)) (hprotocol : Follows (Protocol claimOf) [] trail)
    {settled : List OutboxRow} (htrail : trail = past ++ .committed t settled :: since)
    (hsettled : ∃ e ∈ settled, e.id = row ∧ e.status.isSettled = true) :
    (∃ e, s.rows.find? row = some e ∧ e.status.isSettled = true) ∨
      ReturnedLate claimOf row past since := by
  have hsplit : trail = past ++ [.committed t settled] ++ since := by simp [htrail]
  have hclosed : ∃ e ∈ settled, e.id = row ∧ e.Closed none := by
    simpa only [OutboxRow.closed_none] using hsettled
  have hwhole := happened_of_trace h
  rw [hsplit] at hwhole hprotocol
  rcases hwhole.settled_since hprotocol hclosed with hlate | ⟨hsince, -⟩
  · exact Or.inr hlate
  · left
    obtain ⟨e, he, hclosed⟩ := hsince.committed
    exact ⟨e, he, OutboxRow.closed_none.mp hclosed⟩

end protocol

/-! ## A late return -/

/-- The row once the other claimant has settled it. -/
def settledRow : OutboxRow :=
  (leasedRow.endLease.lease muchLater "fast").complete muchLater

/-- The row once the slow claimant has put it off. -/
def reopenedRow : OutboxRow :=
  settledRow.postpone muchLater "timed out"

/-- The other claimant settles the row that it has taken over; then the slow
    one puts it off. -/
def returnedLate : List Move :=
  takenOver ++ [
    .event (.ask 5 (.leaseRow waitingRow.id muchLater "fast")),
    .event (.commit 5),
    .event .start,
    .event (.ask 6 (.completeRow waitingRow.id muchLater)),
    .event (.commit 6),
    .event .start,
    .event (.ask 7 (.postponeRow waitingRow.id muchLater "timed out")),
    .event (.commit 7)]

/-- What happens up to the settlement. -/
def beforeTheSettlement : List Entry :=
  takenOverTrail ++ [
    .asked 5 (.leaseRow waitingRow.id muchLater "fast") (.ok .done),
    .committed 5 [leasedRow.endLease.lease muchLater "fast"],
    .started 6,
    .asked 6 (.completeRow waitingRow.id muchLater) (.ok .done)]

/-- What happens after the settlement. -/
def afterTheSettlement : List Entry := [
  .started 7,
  .asked 7 (.postponeRow waitingRow.id muchLater "timed out") (.ok .done),
  .committed 7 [reopenedRow]]

/-- Transaction 6 settles the claim of transaction 5, and transaction 7 that of
    transaction 3. -/
def claimOfLate (t : TxId) (_ : RowId) : TxId :=
  if t = 6 then 5 else 3

/-- **A settled row can be opened again** by workers that follow the protocol. -/
theorem settled_rows_reopen :
    ∃ s, trace returnedLate =
        some (beforeTheSettlement ++ .committed 6 [settledRow] :: afterTheSettlement, s) ∧
      Follows (Protocol claimOfLate) []
        (beforeTheSettlement ++ .committed 6 [settledRow] :: afterTheSettlement) ∧
      settledRow.id = waitingRow.id ∧ settledRow.status = .processed ∧
      s.rows.find? waitingRow.id = some reopenedRow ∧ reopenedRow.status = .pending :=
  ⟨_, rfl, by decide, rfl, rfl, rfl, rfl⟩

theorem settled_rows_stay_settled_returned_late :
    ∃ trail s, trace returnedLate = some (trail, s) ∧
      Follows (Protocol claimOfLate) [] trail ∧
      trail = beforeTheSettlement ++ .committed 6 [settledRow] :: afterTheSettlement ∧
      (∃ e ∈ [settledRow], e.id = waitingRow.id ∧ e.status.isSettled = true) ∧
      ((∃ e, s.rows.find? waitingRow.id = some e ∧ e.status.isSettled = true) ∨
        ReturnedLate claimOfLate waitingRow.id beforeTheSettlement afterTheSettlement) := by
  have hruns : (trace returnedLate).map Prod.fst =
      some (beforeTheSettlement ++ .committed 6 [settledRow] :: afterTheSettlement) := rfl
  obtain ⟨⟨trail, s⟩, hrun, htrail⟩ := Option.map_eq_some_iff.mp hruns
  have hprotocol : Follows (Protocol claimOfLate) []
      (beforeTheSettlement ++ .committed 6 [settledRow] :: afterTheSettlement) := by decide
  have hsettled : ∃ e ∈ [settledRow], e.id = waitingRow.id ∧ e.status.isSettled = true :=
    ⟨settledRow, List.mem_singleton_self _, rfl, rfl⟩
  rw [← htrail] at hprotocol
  exact ⟨trail, s, hrun, hprotocol, htrail, hsettled,
    settled_rows_stay_settled hrun hprotocol htrail hsettled⟩

end OrderFlow.Store
