import OrderFlow.Proofs.Store.Serial

/-! # Histories with claims

    The histories of serializable transactions know only calls that wait
    for a lock.  Here the two calls on the outbox are added that pass over
    the rows which others hold: claims and the release of stale leases.

    A history leaves a trail, which says what happened in which order and
    what each call was answered.  What is claimed of histories is claimed of
    their trails. -/

namespace OrderFlow.Store

/-! ## Trails -/

/-- One step of a history. -/
inductive Move where
  /-- One of the steps that may have to wait. -/
  | event (e : Event)
  /-- Transaction `t` claims up to `limit` rows that are due at `now`. -/
  | claim (t : TxId) (limit : Nat) (now : Instant)
  /-- Transaction `t` ends the leases from before `limit`. -/
  | release (t : TxId) (limit : Instant)

/-- What happened in one step. -/
inductive Entry where
  /-- Transaction `t` has begun. -/
  | started (t : TxId)
  /-- Transaction `t` has claimed rows. -/
  | claimed (t : TxId) (rows : List OutboxRow)
  /-- Transaction `t` has ended the leases of rows, which were from before `limit`. -/
  | released (t : TxId) (limit : Instant) (rows : List OutboxRow)
  /-- Transaction `t` has asked for something and was answered. -/
  | asked (t : TxId) (q : Request) (a : Answer)
  /-- Transaction `t` has committed the outbox rows that it had written. -/
  | committed (t : TxId) (written : List OutboxRow)
  /-- Transaction `t` has ended and left nothing behind. -/
  | ended (t : TxId)
  /-- Nothing that concerns a transaction. -/
  | outside

namespace Entry

/-- Transaction `t` has claimed the row. -/
def Claims (t : TxId) (row : RowId) : Entry → Prop
  | .claimed u rows => u = t ∧ ∃ e ∈ rows, e.id = row
  | _ => False

/-- Transaction `t` has asked to lease the row. -/
def Leases (t : TxId) (row : RowId) : Entry → Prop
  | .asked u (.leaseRow id _ _) _ => u = t ∧ id = row
  | _ => False

/-- The row was put into the outbox. -/
def Enqueues (row : RowId) : Entry → Prop
  | .asked _ (.writeRow e) _ => e.id = row
  | _ => False

/-- Transaction `t` has ended. -/
def Ends (t : TxId) : Entry → Prop
  | .committed u _ | .ended u => u = t
  | _ => False

instance (t : TxId) (row : RowId) (x : Entry) : Decidable (x.Claims t row) := by
  unfold Claims
  split <;> infer_instance

instance (t : TxId) (row : RowId) (x : Entry) : Decidable (x.Leases t row) := by
  unfold Leases
  split <;> infer_instance

instance (row : RowId) (x : Entry) : Decidable (x.Enqueues row) := by
  unfold Enqueues
  split <;> infer_instance

instance (t : TxId) (x : Entry) : Decidable (x.Ends t) := by
  unfold Ends
  split <;> infer_instance

end Entry

/-- The outbox rows that an open transaction has written. -/
def writtenBy (s : Store) (t : TxId) : List OutboxRow :=
  match s.opened.find? t with
  | none => []
  | some tx => tx.rows.values

/-- The rows whose leases transaction `t` would end. -/
def staleRows (s : Store) (t : TxId) (limit : Instant) : List OutboxRow :=
  match s.opened.find? t with
  | none => []
  | some tx => s.lockableRows t tx fun e => e.isStale limit

/-- The step, if nobody has to wait for a lock. -/
def Move.run (m : Move) (s : Store) : Option (Entry × Store) :=
  match m with
  | .event .start => (Store.start s).map fun p =>
    (match p.1 with
      | .ok t => .started t
      | .error _ => .outside, p.2)
  | .event (.ask t q) => (q.call t s).map fun p => (.asked t q p.1, p.2)
  | .event (.commit t) => (Store.commit t s).map fun p =>
    (match p.1 with
      | .ok _ => .committed t (s.writtenBy t)
      | .error _ => .ended t, p.2)
  | .event (.abandon t) => (Store.abandon t s).map fun p => (.ended t, p.2)
  | .event (.setAvailable value) => some (.outside, { s with available := value })
  | .claim t limit now => (Store.claimDue t limit now s).map fun p =>
    (match p.1 with
      | .ok rows => .claimed t rows
      | .error _ => .outside, p.2)
  | .release t limit => (Store.endStaleLeases t limit s).map fun p =>
    (.released t limit (s.staleRows t limit), p.2)

/-- The trail of a history of an empty store, if nobody has to wait for a lock. -/
def trace (history : List Move) : Option (List Entry × Store) :=
  history.foldlM (fun c m => (m.run c.2).map fun p => (c.1 ++ [p.1], p.2)) ([], {})

/-- Every entry is allowed after the ones before it. -/
def Follows (allowed : List Entry → Entry → Prop) (past : List Entry) : List Entry → Prop
  | [] => True
  | entry :: rest => allowed past entry ∧ Follows allowed (past ++ [entry]) rest

instance Follows.decide (allowed : List Entry → Entry → Prop)
    [∀ past entry, Decidable (allowed past entry)] (past : List Entry) :
    (trail : List Entry) → Decidable (Follows allowed past trail)
  | [] => .isTrue trivial
  | entry :: rest =>
    have := Follows.decide allowed (past ++ [entry]) rest
    inferInstanceAs (Decidable (_ ∧ _))

section follows
variable {allowed : List Entry → Entry → Prop} {past trail : List Entry} {entry : Entry}

theorem follows_append {more : List Entry} :
    Follows allowed past (trail ++ more) ↔
      Follows allowed past trail ∧ Follows allowed (past ++ trail) more := by
  induction trail generalizing past with
  | nil => simp [Follows]
  | cons x rest ih =>
    show allowed past x ∧ Follows allowed (past ++ [x]) (rest ++ more) ↔
      (allowed past x ∧ Follows allowed (past ++ [x]) rest) ∧ _
    rw [ih, and_assoc, List.append_assoc]
    rfl

/-- Each entry is allowed after what comes before it. -/
theorem Follows.at {more : List Entry} (h : Follows allowed [] (trail ++ entry :: more)) :
    allowed trail entry :=
  (follows_append.mp h).2.1

theorem Follows.before {more : List Entry} (h : Follows allowed [] (trail ++ more)) :
    Follows allowed [] trail :=
  (follows_append.mp h).1

end follows

/-! ## What each step does -/

/-- **What a step has done** that left this entry. -/
inductive Took (s : Store) : Entry → Store → Prop where
  | started : Took s (.started s.nextTx) s.begun
  | claimed {t : TxId} {tx : Transaction} {rows : List OutboxRow} {s' : Store}
    (hrows : ∀ {e}, e ∈ rows → s.rowIn tx e.id = some e ∧
      (∃ now, e.isDue now = true) ∧ s.lockable t (.row e.id) = true)
    (hp : Progress t s tx s' ((rowKeys rows).foldl Transaction.hold tx)) :
    Took s (.claimed t rows) s'
  | released {t : TxId} {tx : Transaction} {limit : Instant} {rows : List OutboxRow} {s' : Store}
    (hrows : ∀ {e}, e ∈ rows → s.rowIn tx e.id = some e ∧
      e.isStale limit = true ∧ s.lockable t (.row e.id) = true)
    (hp : Progress t s tx s' (((rowKeys rows).foldl Transaction.hold tx).putRows
      (rows.map fun e => (e.id, e.endLease)))) :
    Took s (.released t limit rows) s'
  | asked {t : TxId} {tx : Transaction} {q : Request} {s' : Store}
    (hp : Progress t s tx s' (q.act s (tx.hold q.key)).2) :
    Took s (.asked t q (q.act s (tx.hold q.key)).1) s'
  | committed {t : TxId} {tx : Transaction} (htx : s.opened.find? t = some tx) :
    Took s (.committed t tx.rows.values) ((s.absorb tx).close t)
  | ended {t : TxId} {tx : Transaction} (htx : s.opened.find? t = some tx) :
    Took s (.ended t) (s.close t)
  | outside (b : Bool) : Took s .outside { s with available := b }

section took
variable {m : Move} {s s' : Store} {entry : Entry}

theorem Move.run_took (hs : s.Orderly) (h : m.run s = some (entry, s')) :
    Took s entry s' ∧ s'.Orderly := by
  cases m with
  | event e =>
    cases e with
    | start =>
      obtain ⟨⟨r, s₁⟩, hcall, heq⟩ := Option.map_eq_some_iff.mp h
      rcases start_eq_some hcall with ⟨rfl, -, rfl⟩ | ⟨rfl, -, rfl⟩
      · cases heq
        exact ⟨.started, hs.start⟩
      · cases heq
        exact ⟨.outside s₁.available, hs⟩
    | ask t q =>
      obtain ⟨⟨a, s₁⟩, hcall, heq⟩ := Option.map_eq_some_iff.mp h
      cases heq
      have horderly := Request.call_orderly hs hcall
      rw [Request.call_eq] at hcall
      obtain ⟨tx, rfl, hp⟩ := underLock_eq_some q.act_held hcall
      exact ⟨.asked hp, horderly⟩
    | commit t =>
      obtain ⟨⟨r, s₁⟩, hcall, heq⟩ := Option.map_eq_some_iff.mp h
      obtain ⟨tx, htx, ⟨rfl, -, rfl⟩ | ⟨rfl, -, rfl⟩⟩ := commit_eq_some hcall
      · simp only [writtenBy, htx] at heq
        cases heq
        exact ⟨.committed htx, (hs.absorb (hs.each htx)).close t⟩
      · cases heq
        exact ⟨.ended htx, hs.close t⟩
    | abandon t =>
      obtain ⟨⟨r, s₁⟩, hcall, heq⟩ := Option.map_eq_some_iff.mp h
      obtain ⟨tx, htx, -, rfl⟩ := abandon_eq_some hcall
      cases heq
      exact ⟨.ended htx, hs.close t⟩
    | setAvailable value =>
      cases h
      exact ⟨.outside value, hs.setAvailable value⟩
  | claim t limit now =>
    obtain ⟨⟨r, s₁⟩, hcall, heq⟩ := Option.map_eq_some_iff.mp h
    have horderly := hs.claimDue hcall
    obtain ⟨tx, rows, rfl, hrows, hp⟩ := claimDue_eq_some hcall
    cases heq
    refine ⟨.claimed (fun {e} he => ?_) hp, horderly⟩
    obtain ⟨hseen, hdue, hfree⟩ := hrows e he
    exact ⟨(hs.mem_rowsIn_iff hp.before).mp hseen, ⟨now, hdue⟩, hfree⟩
  | release t limit =>
    obtain ⟨⟨r, s₁⟩, hcall, heq⟩ := Option.map_eq_some_iff.mp h
    have horderly := hs.endStaleLeases hcall
    obtain ⟨tx, rows, -, hrows, hp⟩ := endStaleLeases_eq_some hcall
    simp only [staleRows, hp.before, ← hrows] at heq
    cases heq
    refine ⟨.released (fun {e} he => ?_) hp, horderly⟩
    obtain ⟨hseen, hstale, hfree⟩ := mem_lockableRows.mp (hrows ▸ he)
    exact ⟨(hs.mem_rowsIn_iff hp.before).mp hseen, hstale, hfree⟩

/-- A step inside one transaction closes none. -/
theorem Progress.still_open {t u : TxId} {tx tx' other : Transaction}
    (hp : Progress t s tx s' tx') (hu : s.opened.find? u = some other) :
    ∃ other', s'.opened.find? u = some other' := by
  by_cases hut : u = t
  · exact ⟨tx', hut ▸ hp.after⟩
  · exact ⟨other, (hp.others hut).trans hu⟩

/-- Only its end closes a transaction. -/
theorem Took.still_open {t : TxId} {tx : Transaction} (ht : Took s entry s') (hs : s.Orderly)
    (htx : s.opened.find? t = some tx) (hnot : ¬ entry.Ends t) :
    ∃ tx', s'.opened.find? t = some tx' := by
  cases ht with
  | started =>
    have hne : s.nextTx ≠ t := Nat.ne_of_gt (hs.below htx)
    rw [opened_begun, if_neg hne]
    exact ⟨tx, htx⟩
  | claimed _ hp | released _ hp | asked hp => exact hp.still_open htx
  | @committed u _ _ | @ended u _ _ =>
    have hne : ¬ u = t := hnot
    refine ⟨tx, ?_⟩
    rw [opened_close, if_neg hne]
    exact htx
  | outside b => exact ⟨tx, htx⟩

end took

/-! ## What a transaction sees of an outbox row -/

/-- What a request makes of a transaction's view of a row. -/
def Request.rowView (q : Request) (row : RowId) (seen : Option OutboxRow) : Option OutboxRow :=
  match q with
  | .writeRow e => if e.id = row then some e else seen
  | .leaseRow id now claimant => if id = row then seen.map fun e => e.lease now claimant else seen
  | .completeRow id now => if id = row then seen.map fun e => e.complete now else seen
  | .postponeRow id next error => if id = row then seen.map fun e => e.postpone next error else seen
  | .giveUpRow id now error => if id = row then seen.map fun e => e.giveUp now error else seen
  | .holdOrder _ | .writeOrder _ | .writeLetter _ | .dropLetter _ => seen

theorem Request.rowIn_act (q : Request) (s : Store) (tx : Transaction) (row : RowId) :
    s.rowIn (q.act s (tx.hold q.key)).2 row = q.rowView row (s.rowIn tx row) := by
  have changed (id : RowId) (f : OutboxRow → OutboxRow) :
      s.rowIn (Request.changing id f s (tx.hold (.row id))).2 row =
        if id = row then (s.rowIn tx row).map f else s.rowIn tx row := by
    unfold Request.changing
    rw [rowIn_hold]
    cases hid : s.rowIn tx id with
    | none =>
      show s.rowIn (tx.hold (.row id)) row = _
      rw [rowIn_hold]
      split
      · next heq => rw [← heq, hid]; rfl
      · rfl
    | some e =>
      show s.rowIn ((tx.hold (.row id)).putRow id (f e)) row = _
      rw [rowIn_putRow, rowIn_hold]
      split
      · next heq => rw [← heq, hid]; rfl
      · rfl
  cases q with
  | writeRow e =>
    show s.rowIn ((tx.hold (.row e.id)).putRow e.id e) row = _
    rw [rowIn_putRow, rowIn_hold]
    rfl
  | leaseRow id now claimant => exact changed id _
  | completeRow id now => exact changed id _
  | postponeRow id next error => exact changed id _
  | giveUpRow id now error => exact changed id _
  | holdOrder id | writeOrder o | writeLetter d | dropLetter id =>
    exact rowIn_congr (congrArg (·.find? row) (tx.hold_rows _))

/-- Only a row that is written need not have been there before. -/
theorem Request.rowView_eq_some {q : Request} {row : RowId} {seen : Option OutboxRow}
    {e : OutboxRow} (h : q.rowView row seen = some e) :
    (∃ e', q = .writeRow e' ∧ e'.id = row) ∨ ∃ e', seen = some e' := by
  cases q with
  | writeRow e' =>
    by_cases hid : e'.id = row
    · exact Or.inl ⟨e', rfl, hid⟩
    · simp only [Request.rowView, hid, if_false] at h
      exact Or.inr ⟨e, h⟩
  | leaseRow | completeRow | postponeRow | giveUpRow =>
    right
    simp only [Request.rowView] at h
    split at h
    · obtain ⟨e', he', -⟩ := Option.map_eq_some_iff.mp h
      exact ⟨e', he'⟩
    · exact ⟨e, h⟩
  | holdOrder | writeOrder | writeLetter | dropLetter => exact Or.inr ⟨e, h⟩

/-- Locks do not change what is seen. -/
theorem rowIn_foldl_hold (s : Store) (tx : Transaction) (keys : List LockKey) (row : RowId) :
    s.rowIn (keys.foldl Transaction.hold tx) row = s.rowIn tx row :=
  rowIn_congr (congrArg (·.find? row) (foldl_hold_rows keys tx))

/-- A row that is not among those whose leases end is seen as before. -/
theorem rowIn_putRows_of_not_mem {rows : List OutboxRow} {row : RowId}
    (h : ∀ e ∈ rows, e.id ≠ row) (f : OutboxRow → OutboxRow) (s : Store) (tx : Transaction) :
    s.rowIn (tx.putRows (rows.map fun e => (e.id, f e))) row = s.rowIn tx row := by
  refine rowIn_congr (Table.find?_putAll_of_none (Table.find?_eq_none_iff.mpr ?_))
  intro hmem
  obtain ⟨p, hp, hrow⟩ := List.mem_map.mp hmem
  obtain ⟨e, he, rfl⟩ := List.mem_map.mp hp
  exact h e he hrow

/-! ## What every trail keeps -/

/-- **What a trail keeps.**  The store is in order; every row that anybody sees
    was enqueued; no transaction has claimed before it began; and an open
    transaction holds the locks of all rows that it has claimed. -/
structure Kept (trail : List Entry) (s : Store) : Prop where
  orderly : s.Orderly
  enqueued : ∀ {tx row e}, s.Current tx → s.rowIn tx row = some e → ∃ x ∈ trail, x.Enqueues row
  begun : ∀ {t row}, (∃ x ∈ trail, x.Claims t row) → t < s.nextTx
  held : ∀ {t tx row}, s.opened.find? t = some tx → (∃ x ∈ trail, x.Claims t row) →
    LockKey.row row ∈ tx.held

section kept
variable {trail : List Entry} {entry : Entry} {s s' : Store} {t : TxId} {tx tx' : Transaction}

theorem kept_nil : Kept [] {} where
  orderly := orderly_empty
  enqueued := by
    intro tx row e hc he
    rcases hc with rfl | ⟨t, ht⟩
    · cases he
    · cases ht
  begun := by
    rintro t row ⟨x, hx, -⟩
    cases hx
  held := by
    intro t tx row ht
    cases ht

theorem mem_snoc_iff {P : Entry → Prop} :
    (∃ x ∈ trail ++ [entry], P x) ↔ (∃ x ∈ trail, P x) ∨ P entry := by
  simp [or_and_right, exists_or]

/-- A step inside a transaction. -/
theorem Kept.progress (h : Kept trail s) (hp : Progress t s tx s' tx') (horderly : s'.Orderly)
    (hseen : ∀ {row e}, s.rowIn tx' row = some e → ∃ x ∈ trail ++ [entry], x.Enqueues row)
    (hclaims : ∀ {u row}, entry.Claims u row → u = t ∧ LockKey.row row ∈ tx'.held) :
    Kept (trail ++ [entry]) s' where
  orderly := horderly
  enqueued := by
    intro tx₁ row e hc he
    rw [← hp.sameTables.rowIn] at he
    rcases hc with rfl | ⟨u, hu⟩
    · exact mem_snoc_iff.mpr (Or.inl (h.enqueued (current_empty s) he))
    · by_cases hut : u = t
      · subst hut
        rw [hp.after, Option.some.injEq] at hu
        exact hseen (hu ▸ he)
      · rw [hp.others hut] at hu
        exact mem_snoc_iff.mpr (Or.inl (h.enqueued (current_opened hu) he))
  begun := by
    intro u row hu
    rw [hp.nextTx]
    rcases mem_snoc_iff.mp hu with hold | hnew
    · exact h.begun hold
    · exact (hclaims hnew).1 ▸ h.orderly.below hp.before
  held := by
    intro u tx₁ row hu hclaimed
    by_cases hut : u = t
    · subst hut
      rw [hp.after, Option.some.injEq] at hu
      subst hu
      rcases mem_snoc_iff.mp hclaimed with hold | hnew
      · exact hp.keeps (h.held hp.before hold)
      · exact (hclaims hnew).2
    · rw [hp.others hut] at hu
      rcases mem_snoc_iff.mp hclaimed with hold | hnew
      · exact h.held hu hold
      · exact absurd (hclaims hnew).1 hut

/-- A step that ends a transaction or concerns none. -/
theorem Kept.end (h : Kept trail s) (horderly : s'.Orderly) (hnext : s'.nextTx = s.nextTx)
    (hopened : ∀ {u tx}, s'.opened.find? u = some tx → s.opened.find? u = some tx)
    (hseen : ∀ {tx row e}, s'.Current tx → s'.rowIn tx row = some e →
      ∃ tx₁, s.Current tx₁ ∧ s.rowIn tx₁ row = some e)
    (hclaims : ∀ u row, ¬ entry.Claims u row) : Kept (trail ++ [entry]) s' where
  orderly := horderly
  enqueued := by
    intro tx row e hc he
    obtain ⟨tx₁, hc₁, he₁⟩ := hseen hc he
    exact mem_snoc_iff.mpr (Or.inl (h.enqueued hc₁ he₁))
  begun := by
    intro u row hu
    rw [hnext]
    rcases mem_snoc_iff.mp hu with hold | hnew
    · exact h.begun hold
    · exact absurd hnew (hclaims u row)
  held := by
    intro u tx row hu hclaimed
    rcases mem_snoc_iff.mp hclaimed with hold | hnew
    · exact h.held (hopened hu) hold
    · exact absurd hnew (hclaims u row)

theorem mem_held_rowKeys {rows : List OutboxRow} {e : OutboxRow} (he : e ∈ rows)
    (tx : Transaction) : LockKey.row e.id ∈ ((rowKeys rows).foldl Transaction.hold tx).held :=
  mem_held_foldl_hold.mpr (Or.inl (List.mem_map.mpr ⟨e, he, rfl⟩))

/-- **One step** keeps it. -/
theorem Kept.step (h : Kept trail s) (horderly : s'.Orderly) (ht : Took s entry s') :
    Kept (trail ++ [entry]) s' := by
  cases ht with
  | started =>
    refine ⟨horderly, ?_, ?_, ?_⟩
    · intro tx row e hc he
      exact mem_snoc_iff.mpr (Or.inl (h.enqueued (current_start hc) he))
    · intro t row hclaimed
      rcases mem_snoc_iff.mp hclaimed with hold | hnew
      · exact Nat.lt_succ_of_lt (h.begun hold)
      · cases hnew
    · intro t tx row hu hclaimed
      rcases mem_snoc_iff.mp hclaimed with hold | hnew
      · -- What has claimed before is not the transaction that begins now.
        have hne : s.nextTx ≠ t := Nat.ne_of_gt (h.begun hold)
        rw [opened_begun, if_neg hne] at hu
        exact h.held hu hold
      · cases hnew
  | @claimed t tx rows _ hrows hp =>
    refine h.progress hp horderly ?_ ?_
    · intro row e he
      rw [rowIn_foldl_hold] at he
      exact mem_snoc_iff.mpr (Or.inl (h.enqueued (current_opened hp.before) he))
    · rintro u row ⟨rfl, e, he, rfl⟩
      exact ⟨rfl, mem_held_rowKeys he tx⟩
  | @released t tx limit rows _ hrows hp =>
    refine h.progress hp horderly ?_ fun hnew => by cases hnew
    intro row e he
    -- To end a lease a row has to be there, so no new rows are seen.
    refine mem_snoc_iff.mpr (Or.inl ?_)
    by_cases hmem : ∃ e ∈ rows, e.id = row
    · obtain ⟨e', he', rfl⟩ := hmem
      exact h.enqueued (current_opened hp.before) (hrows he').1
    · have hnot : ∀ e ∈ rows, e.id ≠ row := fun e he hid => hmem ⟨e, he, hid⟩
      rw [rowIn_putRows_of_not_mem hnot, rowIn_foldl_hold] at he
      exact h.enqueued (current_opened hp.before) he
  | @asked t tx q _ hp =>
    refine h.progress hp horderly ?_ fun hnew => by cases hnew
    intro row e he
    rw [q.rowIn_act] at he
    rcases q.rowView_eq_some he with ⟨e', rfl, hid⟩ | ⟨e', he'⟩
    · exact mem_snoc_iff.mpr (Or.inr hid)
    · exact mem_snoc_iff.mpr (Or.inl (h.enqueued (current_opened hp.before) he'))
  | @committed t tx htx =>
    refine h.end horderly rfl (fun hu => (opened_of_close hu).2) ?_ fun u row hnew => hnew
    intro tx₁ row e hc he
    have htxo := h.orderly.each htx
    -- What is seen now was seen before, by the transaction itself or by the other.
    rcases hc with rfl | ⟨u, hu⟩
    · refine ⟨tx, current_opened htx, ?_⟩
      exact (rows_absorb htxo s row).symm.trans he
    · obtain ⟨hut, hu⟩ := opened_of_close hu
      rcases h.orderly.rowIn_absorb htx hu hut row with ⟨-, -, -, hview⟩ | ⟨-, -, hview⟩
      · exact ⟨tx₁, current_opened hu, hview.symm.trans he⟩
      · exact ⟨tx, current_opened htx, hview.symm.trans he⟩
  | @ended t tx htx =>
    refine h.end horderly rfl (fun hu => (opened_of_close hu).2) ?_ fun u row hnew => hnew
    intro tx₁ row e hc he
    exact ⟨tx₁, current_close hc, he⟩
  | outside b =>
    refine h.end horderly rfl (fun hu => hu) ?_ fun u row hnew => hnew
    intro tx₁ row e hc he
    exact ⟨tx₁, hc, he⟩

end kept

/-! ## Trails and the stores that they lead to -/

/-- **A trail and the store that it leads to.** -/
inductive Happened : List Entry → Store → Prop where
  | nil : Happened [] {}
  | snoc {trail : List Entry} {s s' : Store} {entry : Entry} (h : Happened trail s)
    (horderly : s'.Orderly) (ht : Took s entry s') : Happened (trail ++ [entry]) s'

section happened
variable {trail more : List Entry} {entry : Entry} {s : Store}

/-- **A whole trail** keeps it. -/
theorem Happened.kept (h : Happened trail s) : Kept trail s := by
  induction h with
  | nil => exact kept_nil
  | snoc _ horderly ht ih => exact ih.step horderly ht

theorem happened_of_trace {history : List Move} (h : trace history = some (trail, s)) :
    Happened trail s := by
  have hgo : ∀ (history : List Move) (c c' : List Entry × Store), Happened c.1 c.2 →
      history.foldlM (fun c (m : Move) => (m.run c.2).map fun p => (c.1 ++ [p.1], p.2)) c =
        some c' → Happened c'.1 c'.2 := by
    intro history
    induction history with
    | nil =>
      intro c c' hc hrun
      cases hrun
      exact hc
    | cons m rest ih =>
      intro c c' hc hrun
      rw [List.foldlM_cons] at hrun
      obtain ⟨c₁, hstep, hrest⟩ := Option.bind_eq_some_iff.mp hrun
      obtain ⟨⟨entry, s'⟩, hm, rfl⟩ := Option.map_eq_some_iff.mp hstep
      obtain ⟨ht, horderly⟩ := Move.run_took hc.kept.orderly hm
      exact ih _ _ (.snoc hc horderly ht) hrest
  exact hgo history _ _ .nil h

theorem Happened.last (h : Happened (trail ++ [entry]) s) :
    ∃ s₀, Happened trail s₀ ∧ Took s₀ entry s := by
  generalize hwhole : trail ++ [entry] = whole at h
  cases h with
  | nil => simp at hwhole
  | snoc h _ ht =>
    obtain ⟨rfl, heq⟩ := List.append_inj' hwhole rfl
    cases heq
    exact ⟨_, h, ht⟩

/-- **Along the rest of a trail**: what holds where it begins, and is kept by
    each of its steps, holds where it ends. -/
theorem Happened.extend (h : Happened (trail ++ more) s) (holds : List Entry → Store → Prop)
    (hbegin : ∀ {s₀}, Happened trail s₀ → holds [] s₀)
    (hstep : ∀ {since x s₀ s₁}, Happened (trail ++ since) s₀ → Took s₀ x s₁ →
      holds since s₀ → holds (since ++ [x]) s₁) : holds more s := by
  generalize hwhole : trail ++ more = whole at h
  induction h generalizing more with
  | nil =>
    obtain ⟨rfl, rfl⟩ := List.append_eq_nil_iff.mp hwhole
    exact hbegin .nil
  | @snoc past _ _ x h horderly ht ih =>
    -- Either nothing comes after `trail`, or the last entry does.
    rcases List.eq_nil_or_concat more with rfl | ⟨rest, y, rfl⟩
    · rw [List.append_nil] at hwhole
      exact hbegin (hwhole ▸ .snoc h horderly ht)
    · rw [List.concat_eq_append, ← List.append_assoc] at hwhole
      obtain ⟨hpast, heq⟩ := List.append_inj' hwhole rfl
      cases heq
      rw [List.concat_eq_append]
      exact hstep (hpast ▸ h) ht (ih hpast)

theorem Happened.before (h : Happened (trail ++ more) s) : ∃ s₀, Happened trail s₀ :=
  h.extend (fun _ _ => ∃ s₀, Happened trail s₀) (fun h₀ => ⟨_, h₀⟩) fun _ _ hbefore => hbefore

/-- A transaction that does not end stays open. -/
theorem Happened.still_open {t : TxId} (h : Happened (trail ++ more) s)
    (hopen : ∀ {s₀}, Happened trail s₀ → ∃ tx, s₀.opened.find? t = some tx)
    (hnot : ∀ x ∈ more, ¬ x.Ends t) : ∃ tx, s.opened.find? t = some tx := by
  refine h.extend
    (fun since s₀ => (∀ x ∈ since, ¬ x.Ends t) → ∃ tx, s₀.opened.find? t = some tx)
    (fun h₀ _ => hopen h₀) (fun h₀ ht ih hnot => ?_) hnot
  obtain ⟨tx, htx⟩ := ih fun x hx => hnot x (List.mem_append_left _ hx)
  exact ht.still_open h₀.kept.orderly htx (hnot _ (by simp))

end happened

end OrderFlow.Store
