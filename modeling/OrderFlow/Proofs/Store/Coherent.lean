import OrderFlow.Proofs.Store.Settled

/-! # Rows stay coherent

    The six calls that change an outbox row write different fields of it, in
    transactions that overlap and that may come to nothing.  Whoever enqueues
    only new rows finds every row coherent (`OutboxRow.Coherent`), and still
    saying what it said when it was enqueued.

    No update is lost either: a committed row counts exactly the calls that
    have put it off in transactions that have committed.  What an open
    transaction sees of a row counts these and its own (`Counted.opened`);
    its commit makes the second kind into the first. -/

namespace OrderFlow

/-! ## Coherent rows -/

/-- **A coherent row**: it has a lease, with a time and a name, exactly while it
    is in processing; once settled it says when, and once given up on or put
    off it says why. -/
structure OutboxRow.Coherent (e : OutboxRow) : Prop where
  lockedAt : e.lockedAt.isSome ↔ e.status = .processing
  lockedBy : e.lockedBy.isSome ↔ e.status = .processing
  processedAt : e.status = .processed ∨ e.status = .failed → e.processedAt.isSome
  lastError : e.status = .failed ∨ 0 < e.attempts → e.lastError.isSome

/-- **A row that stems from another one**: what was said when it was enqueued has
    not changed. -/
structure OutboxRow.StemsFrom (e e₀ : OutboxRow) : Prop where
  id : e.id = e₀.id
  order : e.order = e₀.order
  eventType : e.eventType = e₀.eventType
  payload : e.payload = e₀.payload
  createdAt : e.createdAt = e₀.createdAt

/-- **What becomes of a row** in one call. -/
inductive OutboxRow.Becomes (e : OutboxRow) : OutboxRow → Prop where
  | leased (now : Instant) (claimant : String) : Becomes e (e.lease now claimant)
  | released : Becomes e e.endLease
  | completed (now : Instant) : Becomes e (e.complete now)
  | postponed (next : Instant) (error : String) : Becomes e (e.postpone next error)
  | givenUp (now : Instant) (error : String) : Becomes e (e.giveUp now error)

section rows
variable {e e' e₀ : OutboxRow}

theorem OutboxRow.coherent_fresh (id : RowId) (order : OrderId) (eventType payload : String)
    (now : Instant) : (fresh id order eventType payload now).Coherent := by
  constructor <;> simp [fresh]

theorem OutboxRow.StemsFrom.refl (e : OutboxRow) : e.StemsFrom e :=
  ⟨rfl, rfl, rfl, rfl, rfl⟩

/-- A change keeps a row coherent. -/
theorem OutboxRow.Becomes.coherent (h : e.Becomes e') (he : e.Coherent) : e'.Coherent := by
  cases h with
  | leased now claimant =>
    refine ⟨by simp [lease], by simp [lease], by simp [lease], ?_⟩
    rintro (hfailed | hattempts)
    · cases hfailed
    · exact he.lastError (Or.inr hattempts)
  | released =>
    refine ⟨by simp [endLease], by simp [endLease], by simp [endLease], ?_⟩
    rintro (hfailed | hattempts)
    · cases hfailed
    · exact he.lastError (Or.inr hattempts)
  | completed now =>
    refine ⟨by simp [complete, endLease], by simp [complete, endLease], by simp [complete], ?_⟩
    rintro (hfailed | hattempts)
    · cases hfailed
    · exact he.lastError (Or.inr hattempts)
  | postponed next error => constructor <;> simp [postpone, endLease]
  | givenUp now error => constructor <;> simp [giveUp, endLease]

/-- A change leaves alone what was said when the row was enqueued. -/
theorem OutboxRow.Becomes.stemsFrom (h : e.Becomes e') (he : e.StemsFrom e₀) :
    e'.StemsFrom e₀ := by
  obtain ⟨hid, horder, htype, hpayload, hcreated⟩ := he
  cases h <;> exact ⟨hid, horder, htype, hpayload, hcreated⟩

end rows

namespace Store

/-! ## Where rows come from -/

namespace Entry

/-- The row was put into the outbox as it is here. -/
def Writes (e : OutboxRow) : Entry → Prop
  | .asked _ (.writeRow e') _ => e' = e
  | _ => False

/-- The transaction that has put the row off in this step. -/
def postponer? (row : RowId) : Entry → Option TxId
  | .asked t (.postponeRow id _ _) (.ok _) => if id = row then some t else none
  | _ => none

end Entry

/-- **The discipline of histories**: what is enqueued is a new row, and no row is
    enqueued twice. -/
def EnqueuesNew (past : List Entry) : Entry → Prop
  | .asked _ (.writeRow e) _ =>
    e = .fresh e.id e.order e.eventType e.payload e.createdAt ∧ ∀ x ∈ past, ¬ x.Enqueues e.id
  | _ => True

instance (past : List Entry) : (entry : Entry) → Decidable (EnqueuesNew past entry)
  | .asked _ (.writeRow e) _ =>
    inferInstanceAs (Decidable (e = .fresh e.id e.order e.eventType e.payload e.createdAt ∧
      ∀ x ∈ past, ¬ x.Enqueues e.id))
  | .asked _ (.leaseRow _ _ _) _ | .asked _ (.holdOrder _) _ | .asked _ (.writeOrder _) _
  | .asked _ (.completeRow _ _) _ | .asked _ (.postponeRow _ _ _) _
  | .asked _ (.giveUpRow _ _ _) _ | .asked _ (.writeLetter _) _ | .asked _ (.dropLetter _) _
  | .started _ | .claimed _ _ | .released _ _ _ | .committed _ _ | .ended _ | .outside =>
    inferInstanceAs (Decidable True)

/-- What a request makes of a row that is seen, unless it writes one. -/
theorem Request.rowView_becomes {q : Request} {row : RowId} {seen : Option OutboxRow}
    {e : OutboxRow} (h : q.rowView row seen = some e) :
    seen = some e ∨ (∃ e₀, seen = some e₀ ∧ e₀.Becomes e) ∨ q = .writeRow e := by
  -- The four requests that change a row have one shape.
  have changed {id : RowId} {f : OutboxRow → OutboxRow} (hf : ∀ e : OutboxRow, e.Becomes (f e))
      (h : (if id = row then seen.map f else seen) = some e) :
      seen = some e ∨ (∃ e₀, seen = some e₀ ∧ e₀.Becomes e) ∨ q = .writeRow e := by
    split at h
    · obtain ⟨e₀, he₀, rfl⟩ := Option.map_eq_some_iff.mp h
      exact Or.inr (Or.inl ⟨e₀, he₀, hf e₀⟩)
    · exact Or.inl h
  cases q with
  | writeRow e' =>
    simp only [Request.rowView] at h
    split at h
    · cases h
      exact Or.inr (Or.inr rfl)
    · exact Or.inl h
  | leaseRow id now claimant => exact changed (fun e => .leased now claimant) h
  | completeRow id now => exact changed (fun e => .completed now) h
  | postponeRow id next error => exact changed (fun e => .postponed next error) h
  | giveUpRow id now error => exact changed (fun e => .givenUp now error) h
  | holdOrder | writeOrder | writeLetter | dropLetter => exact Or.inl h

section origin
variable {s s' : Store} {entry : Entry} {t : TxId} {tx tx' tx₁ : Transaction} {row : RowId}
  {e : OutboxRow}

/-- **Somebody sees the row.** -/
def Seen (s : Store) (row : RowId) (e : OutboxRow) : Prop :=
  ∃ tx, s.Current tx ∧ s.rowIn tx row = some e

/-- What is seen after progress of one transaction: what was seen before, or what
    that transaction sees now. -/
theorem Progress.seen (hp : Progress t s tx s' tx') (h : Seen s' row e) :
    Seen s row e ∨ s.rowIn tx' row = some e := by
  obtain ⟨tx₁, hc, he⟩ := h
  rw [← hp.sameTables.rowIn] at he
  rcases hc with rfl | ⟨u, hu⟩
  · exact Or.inl ⟨{}, current_empty s, he⟩
  · by_cases hut : u = t
    · subst hut
      rw [hp.after, Option.some.injEq] at hu
      exact Or.inr (hu ▸ he)
    · rw [hp.others hut] at hu
      exact Or.inl ⟨tx₁, current_opened hu, he⟩

/-- What a transaction sees of a row once it has ended leases. -/
theorem rowIn_released {P : OutboxRow → Prop} {rows : List OutboxRow} {keys : List LockKey}
    (hrows : ∀ {e}, e ∈ rows → s.rowIn tx e.id = some e ∧ P e)
    (h : s.rowIn ((keys.foldl Transaction.hold tx).putRows
      (rows.map fun e => (e.id, e.endLease))) row = some e) :
    s.rowIn tx row = some e ∨ ∃ e₀, s.rowIn tx row = some e₀ ∧ e = e₀.endLease := by
  rcases Table.find?_putAll_cases tx.rows (rows.map fun e => (e.id, e.endLease)) row with
    hsame | ⟨e', hmem, hfound⟩
  · left
    rw [← h]
    refine (rowIn_congr ?_).symm
    unfold Transaction.putRows
    rw [foldl_hold_rows]
    exact hsame
  · obtain ⟨e₀, he₀, hpair⟩ := List.mem_map.mp hmem
    cases hpair
    unfold rowIn Transaction.putRows at h
    rw [foldl_hold_rows] at h
    change (Table.find? (Table.putAll tx.rows _) e₀.id).or _ = _ at h
    rw [hfound, Option.some_or, Option.some.injEq] at h
    exact Or.inr ⟨e₀, (hrows he₀).1, h.symm⟩

/-- **Where a row comes from** that somebody sees after a step: it was seen
    before, it has become what it is, or it was written in this step. -/
theorem Took.origin (ht : Took s entry s') (hs : s.Orderly) (h : Seen s' row e) :
    Seen s row e ∨ (∃ e₀, Seen s row e₀ ∧ e₀.Becomes e) ∨ entry.Writes e := by
  cases ht with
  | started =>
    obtain ⟨tx₁, hc, he⟩ := h
    exact Or.inl ⟨tx₁, current_start hc, he⟩
  | claimed _ hp =>
    refine Or.inl ((hp.seen h).elim id fun he => ⟨_, current_opened hp.before, ?_⟩)
    rwa [rowIn_foldl_hold] at he
  | @released t tx limit rows _ hrows hp =>
    rcases hp.seen h with hseen | he
    · exact Or.inl hseen
    rcases rowIn_released hrows he with hsame | ⟨e₀, he₀, rfl⟩
    · exact Or.inl ⟨tx, current_opened hp.before, hsame⟩
    · exact Or.inr (Or.inl ⟨e₀, ⟨tx, current_opened hp.before, he₀⟩, .released⟩)
  | @asked t tx q _ hp =>
    rcases hp.seen h with hseen | he
    · exact Or.inl hseen
    rw [q.rowIn_act] at he
    rcases q.rowView_becomes he with hsame | ⟨e₀, he₀, hbecomes⟩ | rfl
    · exact Or.inl ⟨tx, current_opened hp.before, hsame⟩
    · exact Or.inr (Or.inl ⟨e₀, ⟨tx, current_opened hp.before, he₀⟩, hbecomes⟩)
    · exact Or.inr (Or.inr rfl)
  | @committed t tx htx =>
    left
    obtain ⟨tx₁, hc, he⟩ := h
    -- What is seen now was seen before, by the transaction itself or by the other.
    rcases hc with rfl | ⟨u, hu⟩
    · exact ⟨tx, current_opened htx, (rows_absorb (hs.each htx) s row).symm.trans he⟩
    · obtain ⟨hut, hu⟩ := opened_of_close hu
      rcases hs.rowIn_absorb htx hu hut row with ⟨-, -, -, hview⟩ | ⟨-, -, hview⟩
      · exact ⟨tx₁, current_opened hu, hview.symm.trans he⟩
      · exact ⟨tx, current_opened htx, hview.symm.trans he⟩
  | ended htx =>
    obtain ⟨tx₁, hc, he⟩ := h
    exact Or.inl ⟨tx₁, current_close hc, he⟩
  | outside b => exact Or.inl h

/-- What is written is new. -/
theorem Entry.Writes.fresh {past : List Entry} (h : entry.Writes e)
    (hnew : EnqueuesNew past entry) :
    e = .fresh e.id e.order e.eventType e.payload e.createdAt := by
  unfold Writes at h
  split at h
  · cases h
    exact hnew.1
  · cases h

/-- **Every row that is seen** is coherent and stems from one that was enqueued. -/
theorem Happened.coherent {trail : List Entry} (h : Happened trail s)
    (hnew : Follows EnqueuesNew [] trail) (hseen : Seen s row e) :
    e.Coherent ∧ ∃ x ∈ trail, ∃ e₀, x.Writes e₀ ∧ e.StemsFrom e₀ := by
  -- Over the trail; one step is `Took.origin`.
  induction h generalizing e with
  | nil =>
    obtain ⟨tx, hc, he⟩ := hseen
    rcases hc with rfl | ⟨u, hu⟩
    · cases he
    · cases hu
  | @snoc trail s s' entry h horderly ht ih =>
    have hbefore {e₁ : OutboxRow} (h₁ : Seen s row e₁) := ih hnew.before h₁
    rcases ht.origin h.kept.orderly hseen with hold | ⟨e₁, hold, hbecomes⟩ | hwrites
    · obtain ⟨hcoherent, x, hx, hstems⟩ := hbefore hold
      exact ⟨hcoherent, x, List.mem_append_left _ hx, hstems⟩
    · obtain ⟨hcoherent, x, hx, e₀, hwrites, hstems⟩ := hbefore hold
      exact ⟨hbecomes.coherent hcoherent, x, List.mem_append_left _ hx, e₀, hwrites,
        hbecomes.stemsFrom hstems⟩
    · refine ⟨?_, entry, by simp, e, hwrites, .refl e⟩
      rw [hwrites.fresh hnew.at]
      exact OutboxRow.coherent_fresh _ _ _ _ _

end origin

/-! ## No update is lost -/

/-- The transactions that have put the row off, each as often as it has. -/
def postponers (row : RowId) (trail : List Entry) : List TxId :=
  trail.filterMap (Entry.postponer? row)

/-- Transaction `t` has committed. -/
def HasCommitted (trail : List Entry) (t : TxId) : Prop :=
  ∃ x ∈ trail, x.Commits t

instance (trail : List Entry) (t : TxId) : Decidable (HasCommitted trail t) := by
  unfold HasCommitted
  infer_instance

/-- How often the row was put off in transactions that have committed. -/
def postponements (row : RowId) (trail : List Entry) : Nat :=
  ((postponers row trail).filter fun t => HasCommitted trail t).length

/-- **No update is lost**: a committed row counts what has put it off and was
    committed, and an open transaction sees its own calls counted as well. -/
structure Counted (row : RowId) (trail : List Entry) (s : Store) : Prop where
  committed : ∀ {e}, s.rows.find? row = some e → e.attempts = postponements row trail
  opened : ∀ {t tx e}, s.opened.find? t = some tx → s.rowIn tx row = some e →
    e.attempts = postponements row trail + (postponers row trail).count t
  enqueued : ∀ {t}, t ∈ postponers row trail → ∃ x ∈ trail, x.Enqueues row
  begun : ∀ {t}, t ∈ postponers row trail ∨ HasCommitted trail t → t < s.nextTx
  running : ∀ {t tx}, s.opened.find? t = some tx → ¬ HasCommitted trail t
  locked : ∀ {t tx}, s.opened.find? t = some tx → t ∈ postponers row trail →
    LockKey.row row ∈ tx.held

section counted
variable {row : RowId} {trail : List Entry} {entry : Entry} {s s' : Store} {t u : TxId}
  {tx tx' : Transaction} {e : OutboxRow}

theorem postponers_snoc (row : RowId) (trail : List Entry) (entry : Entry) :
    postponers row (trail ++ [entry]) =
      postponers row trail ++ (entry.postponer? row).toList := by
  unfold postponers
  rw [List.filterMap_append]
  cases h : entry.postponer? row <;> simp [h]

theorem mem_postponers_snoc :
    t ∈ postponers row (trail ++ [entry]) ↔
      t ∈ postponers row trail ∨ entry.postponer? row = some t := by
  simp [postponers_snoc, eq_comm]

theorem hasCommitted_snoc :
    HasCommitted (trail ++ [entry]) t ↔ HasCommitted trail t ∨ entry.Commits t :=
  mem_snoc_iff

/-- What puts the row off counts only when it is committed. -/
theorem postponements_snoc (hno : ∀ u, ¬ entry.Commits u)
    (hrunning : ∀ u, entry.postponer? row = some u → ¬ HasCommitted trail u) :
    postponements row (trail ++ [entry]) = postponements row trail := by
  have hsame : (fun u => decide (HasCommitted (trail ++ [entry]) u)) =
      fun u => decide (HasCommitted trail u) := by
    funext u
    exact decide_eq_decide.mpr (hasCommitted_snoc.trans (or_iff_left (hno u)))
  unfold postponements
  rw [hsame, postponers_snoc, List.filter_append]
  cases hby : entry.postponer? row with
  | none => simp
  | some u => simp [hrunning u hby]

/-- A commit makes what its transaction has put off count. -/
theorem postponements_commit (hrunning : ¬ HasCommitted trail t) (written : List OutboxRow) :
    postponements row (trail ++ [.committed t written]) =
      postponements row trail + (postponers row trail).count t := by
  have hnow : (fun u => decide (HasCommitted (trail ++ [.committed t written]) u)) =
      fun u => decide (HasCommitted trail u) || decide (t = u) := by
    funext u
    rw [← Bool.decide_or]
    exact decide_eq_decide.mpr hasCommitted_snoc
  unfold postponements
  rw [postponers_snoc, hnow]
  show (List.filter _ (postponers row trail ++ [])).length = _
  rw [List.append_nil]
  -- Over what has put the row off, each time by one transaction.
  induction postponers row trail with
  | nil => rfl
  | cons u rest ih =>
    by_cases hu : HasCommitted trail u
    · have hne : u ≠ t := fun heq => hrunning (heq ▸ hu)
      simp [hu, hne, ih]
      omega
    · by_cases heq : t = u
      · subst heq
        simp [hu, ih]
        omega
      · simp [hu, heq, Ne.symm heq, ih]

theorem counted_nil (row : RowId) : Counted row [] {} where
  committed h := by cases h
  opened h := by cases h
  enqueued h := by cases h
  begun h := by
    rcases h with h | ⟨x, hx, -⟩
    · cases h
    · cases hx
  running h := by cases h
  locked h := by cases h

/-- A row that nobody has enqueued was never put off. -/
theorem Counted.not_enqueued (h : Counted row trail s) (hnew : ∀ x ∈ trail, ¬ x.Enqueues row) :
    postponers row trail = [] := by
  refine List.eq_nil_iff_forall_not_mem.mpr fun u hu => ?_
  obtain ⟨x, hx, henqueues⟩ := h.enqueued hu
  exact hnew x hx henqueues

/-- How often a transaction sees the row put off once it was answered. -/
theorem Request.attempts_act {q : Request} (t : TxId)
    (h : s.rowIn (q.act s (tx.hold q.key)).2 row = some e) :
    (∃ e₀, s.rowIn tx row = some e₀ ∧ e.attempts = e₀.attempts +
        ((Entry.asked t q (q.act s (tx.hold q.key)).1).postponer? row).toList.count t) ∨
      (q = .writeRow e ∧ e.id = row) := by
  rw [q.rowIn_act] at h
  cases q with
  | writeRow e' =>
    simp only [Request.rowView] at h
    split at h
    · next hid =>
      cases h
      exact Or.inr ⟨rfl, hid⟩
    · exact Or.inl ⟨e, h, rfl⟩
  | postponeRow id next error =>
    left
    simp only [Request.rowView] at h
    split at h
    · next hid =>
      subst hid
      obtain ⟨e₀, he₀, rfl⟩ := Option.map_eq_some_iff.mp h
      refine ⟨e₀, he₀, ?_⟩
      simp [Request.act, Request.changing, rowIn_hold, he₀, Entry.postponer?, OutboxRow.postpone]
    · next hid =>
      refine ⟨e, h, ?_⟩
      have hnone (a : Answer) :
          (Entry.asked t (.postponeRow id next error) a).postponer? row = none := by
        cases a <;> simp [Entry.postponer?, hid]
      simp [hnone]
  | leaseRow id | completeRow id | giveUpRow id =>
    left
    simp only [Request.rowView] at h
    split at h
    · obtain ⟨e₀, he₀, rfl⟩ := Option.map_eq_some_iff.mp h
      exact ⟨e₀, he₀, rfl⟩
    · exact ⟨e, h, rfl⟩
  | holdOrder | writeOrder | writeLetter | dropLetter => exact Or.inl ⟨e, h, rfl⟩

/-- What puts a row off is asked of the row, and the row is there. -/
theorem Request.seen_of_postponer {q : Request}
    (h : (Entry.asked t q (q.act s (tx.hold q.key)).1).postponer? row = some u) :
    u = t ∧ q.key = .row row ∧ ∃ e, s.rowIn tx row = some e := by
  cases q with
  | postponeRow id next error =>
    simp only [Request.act, Request.changing, rowIn_hold] at h
    cases hseen : s.rowIn tx id with
    | none =>
      rw [hseen] at h
      cases h
    | some e =>
      rw [hseen] at h
      simp only [Entry.postponer?] at h
      split at h
      · next hid =>
        cases h
        exact ⟨rfl, congrArg LockKey.row hid, e, hid ▸ hseen⟩
      · cases h
  | _ => cases h

/-- A step inside a transaction. -/
theorem Counted.progress (h : Counted row trail s) (hs : s.Orderly) (hp : Progress t s tx s' tx')
    (hno : ∀ u, ¬ entry.Commits u)
    (hby : ∀ {u}, entry.postponer? row = some u →
      u = t ∧ LockKey.row row ∈ tx'.held ∧ ∃ e, s.rowIn tx row = some e)
    (henqueued : ∀ {e}, s.rowIn tx row = some e → ∃ x ∈ trail, x.Enqueues row)
    (hview : ∀ {e}, s.rowIn tx' row = some e → e.attempts =
      postponements row trail + (postponers row (trail ++ [entry])).count t) :
    Counted row (trail ++ [entry]) s' := by
  have hsum : postponements row (trail ++ [entry]) = postponements row trail :=
    postponements_snoc hno fun u hu => (hby hu).1 ▸ h.running hp.before
  -- For everybody else nothing has been put off.
  have hothers {v : TxId} (hv : v ≠ t) :
      (postponers row (trail ++ [entry])).count v = (postponers row trail).count v := by
    rw [postponers_snoc, List.count_append]
    cases hfound : entry.postponer? row with
    | none => rfl
    | some u => simp [(hby hfound).1, Ne.symm hv]
  refine ⟨?_, ?_, ?_, ?_, ?_, ?_⟩
  · intro e he
    rw [hsum]
    exact h.committed (hp.rows ▸ he)
  · intro v other e hv he
    rw [← hp.sameTables.rowIn] at he
    rw [hsum]
    by_cases hvt : v = t
    · subst hvt
      rw [hp.after, Option.some.injEq] at hv
      exact hview (hv ▸ he)
    · rw [hp.others hvt] at hv
      rw [hothers hvt]
      exact h.opened hv he
  · intro v hv
    rcases mem_postponers_snoc.mp hv with hold | hnew
    · exact mem_snoc_iff.mpr (Or.inl (h.enqueued hold))
    · obtain ⟨-, -, e, he⟩ := hby hnew
      exact mem_snoc_iff.mpr (Or.inl (henqueued he))
  · intro v hv
    rw [hp.nextTx]
    rw [mem_postponers_snoc, hasCommitted_snoc] at hv
    rcases hv with (hold | hnew) | (hold | hnew)
    · exact h.begun (Or.inl hold)
    · exact (hby hnew).1 ▸ hs.below hp.before
    · exact h.begun (Or.inr hold)
    · exact absurd hnew (hno v)
  · intro v other hv
    rw [hasCommitted_snoc, or_iff_left (hno v)]
    by_cases hvt : v = t
    · exact hvt ▸ h.running hp.before
    · exact h.running ((hp.others hvt).symm.trans hv)
  · intro v other hv hmem
    by_cases hvt : v = t
    · subst hvt
      rw [hp.after, Option.some.injEq] at hv
      subst hv
      rcases mem_postponers_snoc.mp hmem with hold | hnew
      · exact hp.keeps (h.locked hp.before hold)
      · exact (hby hnew).2.1
    · rw [hp.others hvt] at hv
      rcases mem_postponers_snoc.mp hmem with hold | hnew
      · exact h.locked hv hold
      · exact absurd (hby hnew).1 hvt

/-- A step that neither puts the row off nor commits, and after which everybody
    sees the row as one did before. -/
theorem Counted.quiet (h : Counted row trail s) (hno : ∀ u, ¬ entry.Commits u)
    (hby : entry.postponer? row = none) (hnext : s.nextTx ≤ s'.nextTx) (hrows : s'.rows = s.rows)
    (hopened : ∀ {v other}, s'.opened.find? v = some other →
      s.opened.find? v = some other ∨ (v = s.nextTx ∧ other = {})) :
    Counted row (trail ++ [entry]) s' := by
  have hsame : postponers row (trail ++ [entry]) = postponers row trail := by
    rw [postponers_snoc, hby]
    exact List.append_nil _
  have hsum : postponements row (trail ++ [entry]) = postponements row trail :=
    postponements_snoc hno fun u hu => by rw [hby] at hu; cases hu
  have hcommits {v : TxId} : HasCommitted (trail ++ [entry]) v ↔ HasCommitted trail v :=
    hasCommitted_snoc.trans (or_iff_left (hno v))
  refine ⟨?_, ?_, ?_, ?_, ?_, ?_⟩
  · intro e he
    rw [hsum]
    exact h.committed (hrows ▸ he)
  · intro v other e hv he
    have hsees : s.rowIn other row = some e := by
      unfold rowIn at he ⊢
      rwa [hrows] at he
    rw [hsum, hsame]
    rcases hopened hv with hv | ⟨rfl, rfl⟩
    · exact h.opened hv hsees
    · -- A transaction that has only begun has put nothing off.
      have hzero : (postponers row trail).count s.nextTx = 0 :=
        List.count_eq_zero.mpr fun hmem => Nat.lt_irrefl _ (h.begun (Or.inl hmem))
      rw [hzero]
      exact h.committed hsees
  · intro v hv
    exact mem_snoc_iff.mpr (Or.inl (h.enqueued (hsame ▸ hv)))
  · intro v hv
    rw [hsame, hcommits] at hv
    exact Nat.lt_of_lt_of_le (h.begun hv) hnext
  · intro v other hv
    rw [hcommits]
    rcases hopened hv with hv | ⟨rfl, rfl⟩
    · exact h.running hv
    · exact fun hdone => Nat.lt_irrefl _ (h.begun (Or.inr hdone))
  · intro v other hv hmem
    rw [hsame] at hmem
    rcases hopened hv with hv | ⟨rfl, rfl⟩
    · exact h.locked hv hmem
    · exact absurd (h.begun (Or.inl hmem)) (Nat.lt_irrefl _)

/-- A commit. -/
theorem Counted.commit (h : Counted row trail s) (hs : s.Orderly)
    (htx : s.opened.find? t = some tx) (written : List OutboxRow) :
    Counted row (trail ++ [.committed t written]) ((s.absorb tx).close t) := by
  have hsame : postponers row (trail ++ [.committed t written]) = postponers row trail := by
    rw [postponers_snoc]
    exact List.append_nil _
  have hsum : postponements row (trail ++ [.committed t written]) =
      postponements row trail + (postponers row trail).count t :=
    postponements_commit (h.running htx) written
  have habsorb := rows_absorb (hs.each htx) s row
  refine ⟨?_, ?_, ?_, ?_, ?_, ?_⟩
  · intro e he
    rw [hsum]
    exact h.opened htx (habsorb.symm.trans he)
  · intro v other e hv he
    obtain ⟨hne, hv⟩ := opened_of_close hv
    rw [hsum, hsame]
    -- Only one of the two has the row's lock, and only that one has put the row off.
    rcases hs.rowIn_absorb htx hv hne row with ⟨hheld, -, -, hview⟩ | ⟨hheld, -, hview⟩
    · have hzero : (postponers row trail).count t = 0 :=
        List.count_eq_zero.mpr fun hmem => hs.not_held htx hv hne hheld (h.locked htx hmem)
      rw [hzero, Nat.add_zero]
      exact h.opened hv (hview.symm.trans he)
    · have hzero : (postponers row trail).count v = 0 :=
        List.count_eq_zero.mpr fun hmem => hheld (h.locked hv hmem)
      rw [hzero, Nat.add_zero]
      exact h.opened htx (hview.symm.trans he)
  · intro v hv
    exact mem_snoc_iff.mpr (Or.inl (h.enqueued (hsame ▸ hv)))
  · intro v hv
    rw [hsame, hasCommitted_snoc] at hv
    rcases hv with hv | hv | rfl
    · exact h.begun (Or.inl hv)
    · exact h.begun (Or.inr hv)
    · exact hs.below htx
  · intro v other hv
    obtain ⟨hne, hv⟩ := opened_of_close hv
    rw [hasCommitted_snoc]
    rintro (hdone | rfl)
    · exact h.running hv hdone
    · exact hne rfl
  · intro v other hv hmem
    exact h.locked (opened_of_close hv).2 (hsame ▸ hmem)

/-- **One step** loses no update. -/
theorem Counted.step (h : Counted row trail s) (hk : Kept trail s)
    (hnew : EnqueuesNew trail entry) (ht : Took s entry s') :
    Counted row (trail ++ [entry]) s' := by
  -- A step that puts nothing off leaves the counts alone.
  have hunchanged {t : TxId} {e e₀ : OutboxRow} {tx : Transaction}
      (htx : s.opened.find? t = some tx) (hnone : entry.postponer? row = none)
      (he₀ : s.rowIn tx row = some e₀) (heq : e.attempts = e₀.attempts) :
      e.attempts = postponements row trail + (postponers row (trail ++ [entry])).count t := by
    have hsame : postponers row (trail ++ [entry]) = postponers row trail := by
      rw [postponers_snoc, hnone]
      exact List.append_nil _
    rw [hsame, heq]
    exact h.opened htx he₀
  cases ht with
  | started =>
    refine h.quiet (fun u hu => hu) rfl (Nat.le_succ _) rfl fun {v other} hv => ?_
    rw [opened_begun] at hv
    split at hv
    · next hid => exact Or.inr ⟨hid.symm, (Option.some.inj hv).symm⟩
    · exact Or.inl hv
  | claimed _ hp =>
    refine h.progress hk.orderly hp (fun u hu => hu) (fun hu => by cases hu)
      (hk.enqueued (current_opened hp.before)) fun {e} he => ?_
    rw [rowIn_foldl_hold] at he
    exact hunchanged hp.before rfl he rfl
  | @released t tx limit rows _ hrows hp =>
    refine h.progress hk.orderly hp (fun u hu => hu) (fun hu => by cases hu)
      (hk.enqueued (current_opened hp.before)) fun {e} he => ?_
    rcases rowIn_released hrows he with hsame | ⟨e₀, he₀, rfl⟩
    · exact hunchanged hp.before rfl hsame rfl
    · exact hunchanged hp.before rfl he₀ rfl
  | @asked t tx q _ hp =>
    refine h.progress hk.orderly hp (fun u hu => hu) (fun hu => ?_)
      (hk.enqueued (current_opened hp.before)) fun {e} he => ?_
    · obtain ⟨rfl, hkey, hseen⟩ := q.seen_of_postponer hu
      refine ⟨rfl, ?_, hseen⟩
      rw [q.act_held, ← hkey]
      exact Transaction.mem_held_self
    · rcases Request.attempts_act t he with ⟨e₀, he₀, hattempts⟩ | ⟨rfl, rfl⟩
      · rw [hattempts, h.opened hp.before he₀, postponers_snoc, List.count_append, Nat.add_assoc]
      · -- The row is new, so it has not been put off before.
        obtain ⟨hfresh, hfirst⟩ := hnew
        have hnone := h.not_enqueued hfirst
        have hattempts : e.attempts = 0 := congrArg OutboxRow.attempts hfresh
        rw [hattempts, postponers_snoc, postponements, hnone]
        rfl
  | committed htx => exact h.commit hk.orderly htx _
  | ended htx =>
    exact h.quiet (fun u hu => hu) rfl (Nat.le_refl _) rfl fun hv => Or.inl (opened_of_close hv).2
  | outside b => exact h.quiet (fun u hu => hu) rfl (Nat.le_refl _) rfl Or.inl

/-- **A whole trail** loses no update. -/
theorem Happened.counted (h : Happened trail s) (hnew : Follows EnqueuesNew [] trail)
    (row : RowId) : Counted row trail s := by
  induction h with
  | nil => exact counted_nil row
  | snoc h _ ht ih => exact (ih hnew.before).step h.kept hnew.at ht

/-- **Rows stay coherent.**  Let transactions overlap in any way, let some of
    them commit and others not, and let only new rows be enqueued, each once.
    Then every row that is committed or staged stands under its own id, is
    coherent and says what it said when it was enqueued; and a committed row
    counts exactly the calls that have put it off in transactions that have
    committed. -/
theorem rows_stay_coherent {history : List Move} (h : trace history = some (trail, s))
    (hnew : Follows EnqueuesNew [] trail) :
    (∀ {row e}, (s.rows.find? row = some e ∨
        ∃ t tx, s.opened.find? t = some tx ∧ tx.rows.find? row = some e) →
      e.id = row ∧ e.Coherent ∧ ∃ x ∈ trail, ∃ e₀, x.Writes e₀ ∧ e.StemsFrom e₀) ∧
    ∀ {row e}, s.rows.find? row = some e → e.attempts = postponements row trail := by
  have hwhole := happened_of_trace h
  refine ⟨?_, fun he => (hwhole.counted hnew _).committed he⟩
  rintro row e (he | ⟨t, tx, htx, he⟩)
  · have hseen : Seen s row e := ⟨{}, current_empty s, he⟩
    exact ⟨hwhole.kept.orderly.rows.own he, hwhole.coherent hnew hseen⟩
  · have hview : s.rowIn tx row = some e := by
      unfold rowIn
      rw [he, Option.some_or]
    exact ⟨(hwhole.kept.orderly.each htx).rows.own he,
      hwhole.coherent hnew ⟨tx, current_opened htx, hview⟩⟩

end counted

/-! ## A row that is put off three times -/

/-- The row is put off in a transaction whose commit is refused, leased by
    another one that overlaps with it, put off again and, in a transaction that
    is still open, a third time. -/
def putOffThrice : List Move := [
  .event .start,
  .event (.ask 1 (.writeRow waitingRow)),
  .event (.commit 1),
  .event .start,
  .event .start,
  .event (.ask 2 (.postponeRow waitingRow.id muchLater "busy")),
  .event (.setAvailable false),
  .event (.commit 2),
  .event (.setAvailable true),
  .claim 3 5 .newYear2024,
  .event (.ask 3 (.leaseRow waitingRow.id .newYear2024 "slow")),
  .event (.commit 3),
  .event .start,
  .event (.ask 4 (.postponeRow waitingRow.id muchLater "timed out")),
  .event (.commit 4),
  .event .start,
  .event (.ask 5 (.postponeRow waitingRow.id muchLater "late"))]

/-- What happens altogether. -/
def putOffThriceTrail : List Entry := [
  .started 1,
  .asked 1 (.writeRow waitingRow) (.ok .done),
  .committed 1 [waitingRow],
  .started 2,
  .started 3,
  .asked 2 (.postponeRow waitingRow.id muchLater "busy") (.ok .done),
  .outside,
  .ended 2,
  .outside,
  .claimed 3 [waitingRow],
  .asked 3 (.leaseRow waitingRow.id .newYear2024 "slow") (.ok .done),
  .committed 3 [leasedRow],
  .started 4,
  .asked 4 (.postponeRow waitingRow.id muchLater "timed out") (.ok .done),
  .committed 4 [leasedRow.postpone muchLater "timed out"],
  .started 5,
  .asked 5 (.postponeRow waitingRow.id muchLater "late") (.ok .done)]

theorem rows_stay_coherent_put_off :
    ∃ s, trace putOffThrice = some (putOffThriceTrail, s) ∧
      Follows EnqueuesNew [] putOffThriceTrail ∧
      s.rows.find? waitingRow.id = some (leasedRow.postpone muchLater "timed out") ∧
      (leasedRow.postpone muchLater "timed out").Coherent ∧
      (leasedRow.postpone muchLater "timed out").attempts =
        postponements waitingRow.id putOffThriceTrail := by
  have hruns : (trace putOffThrice).map Prod.fst = some putOffThriceTrail := rfl
  have hrows : (trace putOffThrice).map (fun c => c.2.rows.find? waitingRow.id) =
      some (some (leasedRow.postpone muchLater "timed out")) := rfl
  obtain ⟨⟨trail, s⟩, hrun, rfl⟩ := Option.map_eq_some_iff.mp hruns
  rw [hrun] at hrows
  have hcommitted : s.rows.find? waitingRow.id = some (leasedRow.postpone muchLater "timed out") :=
    Option.some.inj hrows
  have hnew : Follows EnqueuesNew [] putOffThriceTrail := by decide
  obtain ⟨hcoherent, hattempts⟩ := rows_stay_coherent hrun hnew
  exact ⟨s, hrun, hnew, hcommitted, (hcoherent (Or.inl hcommitted)).2.1, hattempts hcommitted⟩

end Store

end OrderFlow
