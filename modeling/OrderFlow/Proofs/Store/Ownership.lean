import OrderFlow.Proofs.Store.Scan

/-! # Who owns a row's lock

    Who holds a lock is recorded twice: in the table of locks, and in the list
    that each open transaction has of its own.  Calls take locks, scans take them
    and may give them back, and the end of a transaction gives back the ones on
    its list.

    Here any number of transactions use one store.  Each step is a whole call,
    a commit, a refused commit, the end without one, or one step of a scan that
    others may come between.  Whatever the steps were, the two records agree, a
    scan keeps the locks of the rows that it has found and of no others, and
    without open transactions there are no locks (`LocksOwned`). -/

namespace OrderFlow.Store

/-! ## A store in use -/

/-- A store in use, with the scans that are in progress. -/
structure InUse where
  /-- The store. -/
  store : Store := {}
  /-- The scans, by their transactions. -/
  scans : Table TxId Scan := []
  deriving DecidableEq

/-- What a transaction reads without a lock. -/
inductive Reading where
  /-- An order. -/
  | order (id : OrderId)
  /-- An outbox row. -/
  | row (id : RowId)
  /-- How many rows are still owed work. -/
  | backlog
  /-- The dead letter of an order. -/
  | letter (id : OrderId)
  /-- All dead letters. -/
  | letters
  /-- The newest dead letters. -/
  | latest (limit : Nat)

/-- The call that reads it. -/
def Reading.call (t : TxId) : Reading → StoreCall Unit
  | .order id => do
    let _ ← readOrder t id
  | .row id => do
    let _ ← readRow t id
  | .backlog => do
    let _ ← countBacklog t
  | .letter id => do
    let _ ← readLetter t id
  | .letters => do
    let _ ← allLetters t
  | .latest limit => do
    let _ ← latestLetters t limit

/-- The transaction whose call it is. -/
def Move.caller : Move → Option TxId
  | .event (.ask t _) | .event (.commit t) | .event (.abandon t) => some t
  | .claim t _ _ | .release t _ => some t
  | .event .start | .event (.setAvailable _) => none

/-- The locks on the list of transaction `t`. -/
def heldBy (s : Store) (t : TxId) : List LockKey :=
  match s.opened.find? t with
  | none => []
  | some tx => tx.held

/-- How a scan has ended. -/
structure Report where
  /-- What it was for. -/
  purpose : Purpose
  /-- What its transaction held when it began. -/
  before : List LockKey
  /-- The rows that it has returned, or whose leases it has ended. -/
  rows : List OutboxRow
  /-- What its transaction held when it ended. -/
  after : List LockKey
  deriving DecidableEq

/-- The report of a call, if it is a scan, that led from `s` to `s'`. -/
def Move.reports (m : Move) (entry : Entry) (s s' : Store) : List Report :=
  match m, entry with
  | .claim t limit now, .claimed _ rows => [⟨.claim limit now, s.heldBy t, rows, s'.heldBy t⟩]
  | .release t limit, .released _ _ rows => [⟨.release limit, s.heldBy t, rows, s'.heldBy t⟩]
  | _, _ => []

/-- One step in a store in use. -/
inductive Act where
  /-- A whole call, or a change of what is available. -/
  | call (m : Move)
  /-- Transaction `t` reads without a lock. -/
  | read (t : TxId) (q : Reading)
  /-- Transaction `t` lists the outbox and begins a scan. -/
  | beginScan (t : TxId) (p : Purpose)
  /-- The scan of transaction `t` goes on by one step. -/
  | goOn (t : TxId)
  /-- The scan of transaction `t` is over and answers. -/
  | endScan (t : TxId)

/-- The step, if nobody has to wait.  A transaction does nothing else while its
    scan is in progress. -/
def Act.run : Act → InUse → Option (List Report × InUse)
  | .call m, c =>
    if m.caller.any fun t => (c.scans.find? t).isSome then none
    else (m.run c.store).map fun p => (m.reports p.1 c.store p.2, { c with store := p.2 })
  | .read t q, c =>
    if (c.scans.find? t).isSome then none
    else (q.call t c.store).map fun p => ([], { c with store := p.2 })
  | .beginScan t p, c =>
    match c.scans.find? t, c.store.opened.find? t with
    | none, some tx => some ([], { c with scans := c.scans.put t (Scan.begin p c.store tx) })
    | _, _ => none
  | .goOn t, c =>
    (c.scans.find? t).bind fun scan => (Scan.step t (c.store, scan)).map fun p =>
      ([], { store := p.1, scans := c.scans.put t p.2 })
  | .endScan t, c =>
    (c.scans.find? t).bind fun scan =>
      if scan.isOver then
        some ([⟨scan.purpose, scan.before, scan.found, c.store.heldBy t⟩],
          { c with scans := c.scans.erase t })
      else none

/-- The reports of a history of an empty store, if nobody has to wait. -/
def InUse.trace (history : List Act) : Option (List Report × InUse) :=
  history.foldlM (fun c a => (a.run c.2).map fun p => (c.1 ++ p.1, p.2)) ([], {})

/-! ## What is kept -/

/-- **Exact**: the scan has added the locks of its rows and no others, and they
    are rows that it was for. -/
structure Report.Exact (r : Report) : Prop where
  after : ∀ k, k ∈ r.after ↔ k ∈ r.before ∨ k ∈ rowKeys r.rows
  rows : ∀ e ∈ r.rows, r.purpose.wants e = true

/-- **A scan accounts** for what its transaction holds: for what that held
    before, for the rows that it has found, and for the row that it is about
    to look up again. -/
structure Scan.Accounts (scan : Scan) (tx : Transaction) : Prop where
  held : ∀ k, k ∈ tx.held ↔ k ∈ scan.before ∨ k ∈ rowKeys scan.found ∨
    ∃ c, scan.checking = some c ∧ k = .row c.id
  rows : ∀ e ∈ scan.found, scan.purpose.wants e = true
  already : ∀ {c}, scan.checking = some c →
    (c.already = true ↔ .row c.id ∈ scan.before ∨ .row c.id ∈ rowKeys scan.found)
  /-- Under a lock that was only just taken nothing is staged. -/
  unstaged : ∀ {c}, scan.checking = some c → c.already = false → tx.rows.find? c.id = none

/-- **In order**: the store is, the scans account for what their transactions
    hold, and those that are over have been exact. -/
structure InUse.Orderly (c : InUse) (reports : List Report) : Prop where
  store : c.store.Orderly
  scans : ∀ {t scan}, c.scans.find? t = some scan →
    ∃ tx, c.store.opened.find? t = some tx ∧ scan.Accounts tx
  reports : ∀ r ∈ reports, r.Exact

/-! ## A lock that is given back -/

section giveBack
variable {s : Store} {t : TxId} {tx : Transaction} {id : RowId}

theorem Orderly.giveBack_eq (h : s.Orderly) (htx : s.opened.find? t = some tx) {key : LockKey}
    (hk : key ∈ tx.held) : s.giveBack t key = { s with
      locks := s.locks.erase key
      opened := s.opened.put t { tx with held := tx.held.filter fun k => k ≠ key } } := by
  have howner : s.locks.find? key = some t := h.owned.mpr ⟨tx, htx, hk⟩
  unfold giveBack
  simp only [htx, howner, if_true]

/-- The transaction is open as before, only without the lock. -/
theorem Orderly.opened_giveBack (h : s.Orderly) (htx : s.opened.find? t = some tx)
    {key : LockKey} (hk : key ∈ tx.held) (u : TxId) :
    (s.giveBack t key).opened.find? u =
      if t = u then some { tx with held := tx.held.filter fun k => k ≠ key }
      else s.opened.find? u := by
  rw [h.giveBack_eq htx hk]
  exact Table.find?_put _ _ _ _

/-- The two records still agree: nobody has the lock now, and the others have theirs. -/
theorem Orderly.owned_giveBack (h : s.Orderly) (htx : s.opened.find? t = some tx)
    {key : LockKey} (hk : key ∈ tx.held) (k : LockKey) (u : TxId) :
    (s.giveBack t key).locks.find? k = some u ↔
      ∃ tx', (s.giveBack t key).opened.find? u = some tx' ∧ k ∈ tx'.held := by
  have hlocks : (s.giveBack t key).locks = s.locks.erase key := by
    rw [h.giveBack_eq htx hk]
  rw [h.opened_giveBack htx hk, hlocks, Table.find?_erase]
  by_cases hkey : key = k
  · -- It was `t` that had the lock, so now nobody has it.
    subst hkey
    rw [if_pos rfl]
    constructor
    · intro hnone
      cases hnone
    · rintro ⟨other, hu, hmem⟩
      by_cases hut : t = u
      · rw [if_pos hut, Option.some.injEq] at hu
        subst hu
        simp at hmem
      · rw [if_neg hut] at hu
        exact absurd (h.owner_eq htx hk hu hmem) hut
  · rw [if_neg hkey, h.owned]
    by_cases hut : t = u
    · subst hut
      simp [htx, Ne.symm hkey]
    · rw [if_neg hut]

/-- **A row's lock** may be given back if nothing is staged under it. -/
theorem Orderly.giveBack (h : s.Orderly) (htx : s.opened.find? t = some tx)
    (hk : .row id ∈ tx.held) (hunstaged : tx.rows.find? id = none) :
    (s.giveBack t (.row id)).Orderly := by
  have howned := h.owned_giveBack htx hk
  have hopened := h.opened_giveBack htx hk
  rw [h.giveBack_eq htx hk] at howned hopened ⊢
  refine {
    orders := h.orders
    rows := h.rows
    deadLetters := h.deadLetters
    locks := h.locks.erase _
    below := ?_
    owned := howned _ _
    each := ?_ }
  · intro u other hu
    rw [hopened] at hu
    split at hu
    · next htu => exact htu ▸ h.below htx
    · exact h.below hu
  · intro u other hu
    rw [hopened] at hu
    split at hu
    · cases hu
      exact (h.each htx).dropRow hunstaged
    · exact h.each hu

end giveBack

/-! ## One step of a scan -/

section scan
variable {s s' : Store} {t : TxId} {tx : Transaction} {scan scan' : Scan} {p : Purpose}

/-- **A step of a scan**: its transaction is still open and accounted for, and
    the others are as they were. -/
structure Scan.Goes (t : TxId) (s s' : Store) (scan' : Scan) : Prop where
  orderly : s'.Orderly
  opened : ∃ tx', s'.opened.find? t = some tx' ∧ scan'.Accounts tx'
  others : ∀ {u}, u ≠ t → s'.opened.find? u = s.opened.find? u

/-- Between two rows a scan accounts for what was held before and for what it has found. -/
theorem Scan.accounts_of_none {before : List LockKey} {todo found : List OutboxRow}
    (hheld : ∀ k, k ∈ tx.held ↔ k ∈ before ∨ k ∈ rowKeys found)
    (hrows : ∀ e ∈ found, p.wants e = true) :
    Scan.Accounts ⟨p, before, todo, none, found⟩ tx where
  held k := by simp [hheld]
  rows := hrows
  already := by
    intro c hc
    cases hc
  unstaged := by
    intro c hc
    cases hc

theorem Scan.accounts_begin (p : Purpose) (s : Store) (tx : Transaction) :
    (Scan.begin p s tx).Accounts tx := by
  apply Scan.accounts_of_none
  · intro k
    simp [rowKeys]
  · intro e he
    cases he

/-- The step in which a scan comes to a row. -/
theorem Scan.Accounts.tryLock (ha : scan.Accounts tx) (h : s.Orderly)
    (htx : s.opened.find? t = some tx) (hchecking : scan.checking = none) (e : OutboxRow)
    (rest : List OutboxRow) :
    Scan.Goes t s (scan.tryLock t s tx e rest).1 (scan.tryLock t s tx e rest).2 := by
  have hheld (k : LockKey) : k ∈ tx.held ↔ k ∈ scan.before ∨ k ∈ rowKeys scan.found := by
    rw [ha.held, hchecking]
    simp
  unfold Scan.tryLock
  dsimp only
  split
  · next hwanted =>
    have hfree : s.lockable t (.row e.id) = true := hwanted.2.elim (h.lockable_of_held htx) id
    have hp := progress_take htx hfree
    refine ⟨h.progress hp ((h.each htx).hold _), ⟨_, hp.after, ?_, ha.rows, ?_, ?_⟩, hp.others⟩
    · intro k
      rw [Transaction.mem_held_hold, hheld]
      simp only [Option.some.injEq, exists_eq_left']
      tauto
    · rintro c hc
      cases hc
      exact decide_eq_true_iff.trans (hheld _)
    · rintro c hc hnot
      cases hc
      rw [Transaction.hold_rows]
      exact (h.each htx).row_unstaged (by simpa using hnot)
  · exact ⟨h, ⟨tx, htx, ha.held, ha.rows, ha.already, ha.unstaged⟩, fun _ => rfl⟩

section recheck
variable {c : Candidate}

/-- While a scan looks a row up again, its transaction holds that row's lock, too. -/
theorem Scan.Accounts.held_checking (ha : scan.Accounts tx) (hchecking : scan.checking = some c)
    (k : LockKey) :
    k ∈ tx.held ↔ k ∈ scan.before ∨ k ∈ rowKeys scan.found ∨ k = .row c.id := by
  rw [ha.held, hchecking]
  simp

/-- The row is found. -/
theorem Scan.Accounts.find (ha : scan.Accounts tx) (h : s.Orderly)
    (htx : s.opened.find? t = some tx) (hchecking : scan.checking = some c) {e : OutboxRow}
    (hrow : s.rowIn tx c.id = some e) (hwants : scan.purpose.wants e = true) :
    Scan.Goes t s (s.update t (scan.purpose.stage tx e))
      { scan with checking := none, found := scan.found ++ [e] } := by
  have hid : e.id = c.id := h.rowIn_id htx hrow
  have hlock : .row e.id ∈ tx.held := by
    rw [ha.held_checking hchecking, hid]
    exact Or.inr (Or.inr rfl)
  have hp := progress_update htx (scan.purpose.held_stage tx e)
  have horderly := scan.purpose.orderly_stage (h.each htx) hlock
  refine ⟨h.progress hp horderly, ⟨_, hp.after, Scan.accounts_of_none ?_ ?_⟩, hp.others⟩
  · intro k
    have hkeys : rowKeys (scan.found ++ [e]) = rowKeys scan.found ++ [.row c.id] := by
      rw [← hid]
      exact List.map_append
    rw [Purpose.held_stage, ha.held_checking hchecking, hkeys, List.mem_append,
      List.mem_singleton]
  · intro e' he'
    rcases List.mem_append.mp he' with he' | he'
    · exact ha.rows e' he'
    · rw [List.mem_singleton.mp he']
      exact hwants

/-- The row is not wanted any more, but its lock was there before. -/
theorem Scan.Accounts.keep (ha : scan.Accounts tx) (h : s.Orderly)
    (htx : s.opened.find? t = some tx) (hchecking : scan.checking = some c)
    (halready : c.already = true) : Scan.Goes t s s { scan with checking := none } := by
  have hbefore := (ha.already hchecking).mp halready
  refine ⟨h, ⟨tx, htx, Scan.accounts_of_none (fun k => ?_) ha.rows⟩, fun _ => rfl⟩
  rw [ha.held_checking hchecking]
  constructor
  · rintro (hk | hk | rfl)
    · exact Or.inl hk
    · exact Or.inr hk
    · exact hbefore
  · exact Or.imp_right Or.inl

/-- The row is not wanted any more, and its lock is given back. -/
theorem Scan.Accounts.drop (ha : scan.Accounts tx) (h : s.Orderly)
    (htx : s.opened.find? t = some tx) (hchecking : scan.checking = some c)
    (hnew : c.already = false) :
    Scan.Goes t s (s.giveBack t (.row c.id)) { scan with checking := none } := by
  have hlock : .row c.id ∈ tx.held :=
    (ha.held_checking hchecking _).mpr (Or.inr (Or.inr rfl))
  have hnotBefore : ¬ (.row c.id ∈ scan.before ∨ .row c.id ∈ rowKeys scan.found) := by
    rw [← ha.already hchecking, hnew]
    simp
  have hopened := h.opened_giveBack htx hlock
  refine ⟨h.giveBack htx hlock (ha.unstaged hchecking hnew), ⟨_, (hopened t).trans (if_pos rfl),
    Scan.accounts_of_none (fun k => ?_) ha.rows⟩, fun hu => (hopened _).trans (if_neg hu.symm)⟩
  rw [List.mem_filter, ha.held_checking hchecking, decide_eq_true_eq]
  constructor
  · rintro ⟨hk | hk | hk, hne⟩
    · exact Or.inl hk
    · exact Or.inr hk
    · exact absurd hk hne
  · intro hk
    have hne : k ≠ .row c.id := fun heq => hnotBefore (heq ▸ hk)
    exact ⟨hk.imp_right Or.inl, hne⟩

/-- The step in which a scan looks a row up again. -/
theorem Scan.Accounts.recheck (ha : scan.Accounts tx) (h : s.Orderly)
    (htx : s.opened.find? t = some tx) (hchecking : scan.checking = some c) :
    Scan.Goes t s (scan.recheck t s tx c).1 (scan.recheck t s tx c).2 := by
  unfold Scan.recheck
  cases hfound : (s.rowIn tx c.id).filter scan.purpose.wants with
  | some e =>
    obtain ⟨hrow, hwants⟩ := Option.filter_eq_some_iff.mp hfound
    exact ha.find h htx hchecking hrow hwants
  | none =>
    cases halready : c.already with
    | true => exact ha.keep h htx hchecking halready
    | false => exact ha.drop h htx hchecking halready

end recheck

/-- **A step of a scan** comes to a row, or looks one up again. -/
theorem Scan.step_cases (htx : s.opened.find? t = some tx)
    (hstep : Scan.step t (s, scan) = some (s', scan')) :
    (∃ e rest, scan.checking = none ∧ scan.tryLock t s tx e rest = (s', scan')) ∨
      ∃ c, scan.checking = some c ∧ scan.recheck t s tx c = (s', scan') := by
  unfold Scan.step at hstep
  simp only [htx] at hstep
  cases hchecking : scan.checking with
  | some c =>
    simp only [hchecking, Option.some.injEq] at hstep
    exact Or.inr ⟨c, rfl, hstep⟩
  | none =>
    simp only [hchecking] at hstep
    split at hstep
    · cases hstep
    · split at hstep
      · cases hstep
      · next e rest _ =>
        rw [Option.some.injEq] at hstep
        exact Or.inl ⟨e, rest, rfl, hstep⟩

/-- **Each step** of a scan keeps its account. -/
theorem Scan.Accounts.step (ha : scan.Accounts tx) (h : s.Orderly)
    (htx : s.opened.find? t = some tx) (hstep : Scan.step t (s, scan) = some (s', scan')) :
    Scan.Goes t s s' scan' := by
  rcases Scan.step_cases htx hstep with ⟨e, rest, hchecking, hrow⟩ | ⟨c, hchecking, hrow⟩
  · have hgoes := ha.tryLock h htx hchecking e rest
    rwa [hrow] at hgoes
  · have hgoes := ha.recheck h htx hchecking
    rwa [hrow] at hgoes

end scan

/-! ## One step in a store in use -/

section run
variable {s s' : Store} {t u : TxId} {tx : Transaction} {m : Move} {entry : Entry}

/-- A call leaves the other transactions alone. -/
theorem Move.run_others (h : s.Orderly) (hrun : m.run s = some (entry, s'))
    (hu : m.caller ≠ some u) (htx : s.opened.find? u = some tx) :
    s'.opened.find? u = some tx := by
  have hother {t : TxId} (hm : m.caller = some t) : u ≠ t := by
    rintro rfl
    exact hu hm
  have hclose {t : TxId} (hm : m.caller = some t) (s₁ : Store) (h₁ : s₁.opened = s.opened) :
      (s₁.close t).opened.find? u = some tx := by
    rw [opened_close, if_neg (hother hm).symm, h₁, htx]
  cases m with
  | event e =>
    cases e with
    | start =>
      obtain ⟨⟨r, s₁⟩, hcall, heq⟩ := Option.map_eq_some_iff.mp hrun
      cases heq
      rcases start_eq_some hcall with ⟨-, -, rfl⟩ | ⟨-, -, rfl⟩
      · rw [opened_begun, if_neg (Nat.ne_of_gt (h.below htx)), htx]
      · exact htx
    | ask t q =>
      obtain ⟨⟨a, s₁⟩, hcall, heq⟩ := Option.map_eq_some_iff.mp hrun
      cases heq
      rw [Request.call_eq] at hcall
      obtain ⟨tx', -, hp⟩ := underLock_eq_some q.act_held hcall
      exact (hp.others (hother rfl)).trans htx
    | commit t =>
      obtain ⟨⟨r, s₁⟩, hcall, heq⟩ := Option.map_eq_some_iff.mp hrun
      cases heq
      obtain ⟨tx', -, ⟨-, -, rfl⟩ | ⟨-, -, rfl⟩⟩ := commit_eq_some hcall
      · exact hclose rfl _ rfl
      · exact hclose rfl _ rfl
    | abandon t =>
      obtain ⟨⟨r, s₁⟩, hcall, heq⟩ := Option.map_eq_some_iff.mp hrun
      cases heq
      obtain ⟨tx', -, -, rfl⟩ := abandon_eq_some hcall
      exact hclose rfl _ rfl
    | setAvailable value =>
      cases hrun
      exact htx
  | claim t limit now =>
    obtain ⟨⟨r, s₁⟩, hcall, heq⟩ := Option.map_eq_some_iff.mp hrun
    obtain ⟨tx', rows, -, -, hp⟩ := claimDue_eq_some hcall
    cases heq
    exact (hp.others (hother rfl)).trans htx
  | release t limit =>
    obtain ⟨⟨r, s₁⟩, hcall, heq⟩ := Option.map_eq_some_iff.mp hrun
    obtain ⟨tx', rows, -, -, hp⟩ := endStaleLeases_eq_some hcall
    cases heq
    exact (hp.others (hother rfl)).trans htx

theorem heldBy_of_opened (htx : s.opened.find? t = some tx) : s.heldBy t = tx.held := by
  unfold heldBy
  rw [htx]

/-- **A claim or a release of stale leases** that is one call is exact. -/
theorem Move.reports_exact (hrun : m.run s = some (entry, s')) {r : Report}
    (hr : r ∈ m.reports entry s s') : r.Exact := by
  cases m with
  | event e => cases hr
  | claim t limit now =>
    obtain ⟨⟨a, s₁⟩, hcall, heq⟩ := Option.map_eq_some_iff.mp hrun
    obtain ⟨tx, rows, rfl, hrows, hp⟩ := claimDue_eq_some hcall
    cases heq
    obtain rfl := List.mem_singleton.mp hr
    refine ⟨fun k => ?_, fun e he => (hrows e he).2.1⟩
    show k ∈ s₁.heldBy t ↔ k ∈ s.heldBy t ∨ k ∈ rowKeys rows
    rw [heldBy_of_opened hp.before, heldBy_of_opened hp.after, mem_held_foldl_hold, or_comm]
  | release t limit =>
    obtain ⟨⟨a, s₁⟩, hcall, heq⟩ := Option.map_eq_some_iff.mp hrun
    obtain ⟨tx, rows, -, hrows, hp⟩ := endStaleLeases_eq_some hcall
    simp only [staleRows, hp.before, ← hrows] at heq
    cases heq
    obtain rfl := List.mem_singleton.mp hr
    refine ⟨fun k => ?_, fun e he => ?_⟩
    · show k ∈ heldBy _ t ↔ k ∈ s.heldBy t ∨ k ∈ rowKeys rows
      rw [heldBy_of_opened hp.before, heldBy_of_opened hp.after]
      show k ∈ ((rowKeys rows).foldl Transaction.hold tx).held ↔ _
      rw [mem_held_foldl_hold, or_comm]
    · have he : e ∈ rows := he
      rw [hrows] at he
      exact (mem_lockableRows.mp he).2.1

/-- What is read without a lock changes nothing. -/
theorem Reading.call_eq_some {q : Reading} {r : Except StoreError Unit}
    (h : q.call t s = some (r, s')) : s' = s := by
  have hview {α : Type} {f : Store → Transaction → α}
      (h : (readView t f >>= fun _ => pure ()) s = some (r, s')) : s' = s := by
    rw [Attempt.bind_apply] at h
    unfold readView at h
    cases htx : s.opened.find? t with
    | none =>
      rw [htx] at h
      cases h
    | some tx =>
      rw [htx] at h
      cases h
      rfl
  cases q <;> exact hview h

end run

section act
variable {c c' : InUse} {t : TxId} {reports more : List Report}

theorem InUse.orderly_empty : InUse.Orderly {} [] where
  store := Store.orderly_empty
  scans := by
    intro t scan hscan
    cases hscan
  reports := by
    intro r hr
    cases hr

/-- More reports that are exact. -/
theorem InUse.Orderly.report (h : c.Orderly reports) (hmore : ∀ r ∈ more, r.Exact) :
    ∀ r ∈ reports ++ more, r.Exact := by
  intro r hr
  rcases List.mem_append.mp hr with hr | hr
  · exact h.reports r hr
  · exact hmore r hr

/-- **A whole call** of a transaction that is not scanning. -/
theorem InUse.Orderly.call (h : c.Orderly reports) {m : Move} {entry : Entry} {s' : Store}
    (hidle : ∀ t, m.caller = some t → c.scans.find? t = none)
    (hrun : m.run c.store = some (entry, s')) :
    InUse.Orderly { c with store := s' } (reports ++ m.reports entry c.store s') where
  store := (Move.run_took h.store hrun).2
  scans := by
    intro u scan hscan
    obtain ⟨tx, htx, haccounts⟩ := h.scans hscan
    have hu : m.caller ≠ some u := by
      intro hm
      have hscan : c.scans.find? u = some scan := hscan
      rw [hidle u hm] at hscan
      cases hscan
    exact ⟨tx, Move.run_others h.store hrun hu htx, haccounts⟩
  reports := h.report fun _ hr => Move.reports_exact hrun hr

/-- **A scan begins.** -/
theorem InUse.Orderly.beginScan (h : c.Orderly reports) {tx : Transaction}
    (htx : c.store.opened.find? t = some tx) (p : Purpose) :
    InUse.Orderly { c with scans := c.scans.put t (Scan.begin p c.store tx) } reports where
  store := h.store
  scans := by
    intro u scan hscan
    rw [Table.find?_put] at hscan
    split at hscan
    · next htu =>
      cases hscan
      exact ⟨tx, htu ▸ htx, Scan.accounts_begin p c.store tx⟩
    · exact h.scans hscan
  reports := h.reports

/-- **A scan goes on.** -/
theorem InUse.Orderly.goOn (h : c.Orderly reports) {s' : Store} {scan scan' : Scan}
    (hscan : c.scans.find? t = some scan)
    (hstep : Scan.step t (c.store, scan) = some (s', scan')) :
    InUse.Orderly { store := s', scans := c.scans.put t scan' } reports := by
  obtain ⟨tx, htx, haccounts⟩ := h.scans hscan
  have hgoes := haccounts.step h.store htx hstep
  refine ⟨hgoes.orderly, ?_, h.reports⟩
  intro u other hother
  rw [Table.find?_put] at hother
  split at hother
  · next htu =>
    cases hother
    exact htu ▸ hgoes.opened
  · next htu =>
    obtain ⟨txu, htxu, haccountsu⟩ := h.scans hother
    exact ⟨txu, (hgoes.others (Ne.symm htu)).trans htxu, haccountsu⟩

/-- A scan that is over has been exact. -/
theorem Scan.Accounts.exact {scan : Scan} {tx : Transaction} (ha : scan.Accounts tx)
    (hover : scan.isOver = true) :
    Report.Exact ⟨scan.purpose, scan.before, scan.found, tx.held⟩ := by
  have hchecking : scan.checking = none := by
    unfold Scan.isOver at hover
    simp only [decide_eq_true_eq] at hover
    exact hover.1
  refine ⟨fun k => ?_, ha.rows⟩
  show k ∈ tx.held ↔ k ∈ scan.before ∨ k ∈ rowKeys scan.found
  rw [ha.held, hchecking]
  simp

/-- **A scan is over.** -/
theorem InUse.Orderly.endScan (h : c.Orderly reports) {scan : Scan}
    (hscan : c.scans.find? t = some scan) (hover : scan.isOver = true) :
    InUse.Orderly { c with scans := c.scans.erase t }
      (reports ++ [⟨scan.purpose, scan.before, scan.found, c.store.heldBy t⟩]) := by
  obtain ⟨tx, htx, haccounts⟩ := h.scans hscan
  refine ⟨h.store, ?_, h.report ?_⟩
  · intro u other hother
    rw [Table.find?_erase] at hother
    split at hother
    · cases hother
    · exact h.scans hother
  · intro r hr
    rw [List.mem_singleton.mp hr, heldBy_of_opened htx]
    exact haccounts.exact hover

/-- **What a step does** that reports this. -/
inductive Act.Did (c : InUse) : Act → List Report → InUse → Prop where
  | call {m : Move} {entry : Entry} {s' : Store}
    (hidle : ∀ t, m.caller = some t → c.scans.find? t = none)
    (hrun : m.run c.store = some (entry, s')) :
    Did c (.call m) (m.reports entry c.store s') { c with store := s' }
  | read {t : TxId} {q : Reading} (hidle : c.scans.find? t = none) : Did c (.read t q) [] c
  | beginScan {t : TxId} {p : Purpose} {tx : Transaction} (hidle : c.scans.find? t = none)
    (htx : c.store.opened.find? t = some tx) :
    Did c (.beginScan t p) [] { c with scans := c.scans.put t (Scan.begin p c.store tx) }
  | goOn {t : TxId} {scan scan' : Scan} {s' : Store} (hscan : c.scans.find? t = some scan)
    (hstep : Scan.step t (c.store, scan) = some (s', scan')) :
    Did c (.goOn t) [] { store := s', scans := c.scans.put t scan' }
  | endScan {t : TxId} {scan : Scan} (hscan : c.scans.find? t = some scan)
    (hover : scan.isOver = true) :
    Did c (.endScan t) [⟨scan.purpose, scan.before, scan.found, c.store.heldBy t⟩]
      { c with scans := c.scans.erase t }

theorem Act.run_did {a : Act} (hrun : a.run c = some (more, c')) : a.Did c more c' := by
  cases a with
  | call m =>
    unfold Act.run at hrun
    dsimp only at hrun
    split at hrun
    · cases hrun
    · next hidle =>
      obtain ⟨⟨entry, s'⟩, hcall, heq⟩ := Option.map_eq_some_iff.mp hrun
      cases heq
      refine .call (fun t ht => ?_) hcall
      simpa [ht] using hidle
  | read t q =>
    unfold Act.run at hrun
    dsimp only at hrun
    split at hrun
    · cases hrun
    · next hidle =>
      obtain ⟨⟨r, s'⟩, hcall, heq⟩ := Option.map_eq_some_iff.mp hrun
      cases heq
      obtain rfl := Reading.call_eq_some hcall
      exact .read (by simpa using hidle)
  | beginScan t p =>
    unfold Act.run at hrun
    dsimp only at hrun
    split at hrun
    · next hidle htx =>
      cases hrun
      exact .beginScan hidle htx
    · cases hrun
  | goOn t =>
    obtain ⟨scan, hscan, hmap⟩ := Option.bind_eq_some_iff.mp hrun
    obtain ⟨⟨s', scan'⟩, hstep, heq⟩ := Option.map_eq_some_iff.mp hmap
    cases heq
    exact .goOn hscan hstep
  | endScan t =>
    obtain ⟨scan, hscan, hend⟩ := Option.bind_eq_some_iff.mp hrun
    split at hend
    · next hover =>
      cases hend
      exact .endScan hscan hover
    · cases hend

/-- **Every step** keeps a store in use in order. -/
theorem InUse.Orderly.act {a : Act} (h : c.Orderly reports) (hdid : a.Did c more c') :
    c'.Orderly (reports ++ more) := by
  cases hdid with
  | call hidle hrun => exact h.call hidle hrun
  | read =>
    rw [List.append_nil]
    exact h
  | beginScan _ htx =>
    rw [List.append_nil]
    exact h.beginScan htx _
  | goOn hscan hstep =>
    rw [List.append_nil]
    exact h.goOn hscan hstep
  | endScan hscan hover => exact h.endScan hscan hover

theorem InUse.orderly_foldlM {history : List Act} {start ending : List Report × InUse}
    (h : start.2.Orderly start.1)
    (hrun : history.foldlM (fun c a => (Act.run a c.2).map fun p => (c.1 ++ p.1, p.2)) start =
      some ending) : ending.2.Orderly ending.1 := by
  induction history generalizing start with
  | nil =>
    cases hrun
    exact h
  | cons a rest ih =>
    rw [List.foldlM_cons] at hrun
    obtain ⟨c₁, hmap, hrest⟩ := Option.bind_eq_some_iff.mp hrun
    obtain ⟨⟨more, c'⟩, hact, rfl⟩ := Option.map_eq_some_iff.mp hmap
    exact ih (h.act (Act.run_did hact)) hrest

end act

/-! ## Ownership -/

/-- **Every lock has its owner**, and the transactions that hold locks hold what
    they need and no more. -/
structure LocksOwned (c : InUse) (reports : List Report) : Prop where
  owned : ∀ k t, c.store.locks.find? k = some t ↔
    ∃ tx, c.store.opened.find? t = some tx ∧ k ∈ tx.held
  disjoint : ∀ {t u tx tx'}, t ≠ u → c.store.opened.find? t = some tx →
    c.store.opened.find? u = some tx' → ∀ k ∈ tx.held, k ∉ tx'.held
  orders : ∀ {t tx id o}, c.store.opened.find? t = some tx → tx.orders.find? id = some o →
    LockKey.order id ∈ tx.held
  rows : ∀ {t tx id e}, c.store.opened.find? t = some tx → tx.rows.find? id = some e →
    LockKey.row id ∈ tx.held
  /-- Also a letter that is to be taken out. -/
  letters : ∀ {t tx id d}, c.store.opened.find? t = some tx → tx.deadLetters.find? id = some d →
    LockKey.deadLetter id ∈ tx.held
  /-- The scans that are over have added the locks of their rows and no others. -/
  scanned : ∀ r ∈ reports, r.Exact
  /-- The scans in progress have added those and the lock of the row that they are about to look up
      again. -/
  scanning : ∀ {t scan}, c.scans.find? t = some scan →
    ∃ tx, c.store.opened.find? t = some tx ∧ scan.Accounts tx
  /-- It is enough to give back the locks on the list of a transaction that ends. -/
  ends : ∀ {t tx}, c.store.opened.find? t = some tx → (c.store.close t).locks =
    List.filter (fun e => ¬ (e.1 ∈ tx.held ∧ e.2 = t)) c.store.locks
  /-- Without open transactions there are no locks. -/
  idle : (∀ t, c.store.opened.find? t = none) → c.store.locks = []

section owned
variable {s : Store} {t : TxId} {tx : Transaction}

/-- Every lock of a transaction is on its list. -/
theorem Orderly.locks_close (h : s.Orderly) (htx : s.opened.find? t = some tx) :
    (s.close t).locks = List.filter (fun e => ¬ (e.1 ∈ tx.held ∧ e.2 = t)) s.locks := by
  apply List.filter_congr
  intro e he
  have howner := h.owned.mp (h.locks.find?_eq_some_iff.mpr he)
  by_cases heq : e.2 = t
  · obtain ⟨tx', htx', hk⟩ := howner
    rw [heq, htx, Option.some.injEq] at htx'
    subst htx'
    simp [heq, hk]
  · simp [heq]

theorem Orderly.locks_eq_nil (h : s.Orderly) (hclosed : ∀ t, s.opened.find? t = none) :
    s.locks = [] := by
  rw [List.eq_nil_iff_forall_not_mem]
  intro e he
  obtain ⟨tx, htx, -⟩ := h.owned.mp (h.locks.find?_eq_some_iff.mpr he)
  rw [hclosed] at htx
  cases htx

/-- **Who owns the locks.**  After every history of any number of transactions,
    the table of locks and the lists of the open transactions agree, and scans
    have kept the locks of the rows that they have found and of no others. -/
theorem locks_owned {history : List Act} {reports : List Report} {c : InUse}
    (h : InUse.trace history = some (reports, c)) : LocksOwned c reports := by
  have hc : c.Orderly reports := InUse.orderly_foldlM InUse.orderly_empty h
  exact {
    owned := fun k t => hc.store.owned
    disjoint := fun hne htx htx' k hk hk' => hne (hc.store.owner_eq htx hk htx' hk')
    orders := fun htx => (hc.store.each htx).orderHeld
    rows := fun htx => (hc.store.each htx).rowHeld
    letters := fun htx => (hc.store.each htx).letterHeld
    scanned := hc.reports
    scanning := hc.scans
    ends := hc.store.locks_close
    idle := hc.store.locks_eq_nil }

/-- Transaction 2 lists two rows for a claim.  Before it comes to the first one,
    transaction 3 settles that and commits; so its lock is given back, and only
    the second row is claimed.  Then the commit of transaction 4 is refused, which
    has locked an order. -/
def settledMeanwhile : List Act := [
  .call (.event .start),
  .call (.event (.ask 1 (.writeRow (numberedRow 8)))),
  .call (.event (.ask 1 (.writeRow (numberedRow 9)))),
  .call (.event (.commit 1)),
  .call (.event .start),
  .call (.event .start),
  .beginScan 2 (.claim 5 .newYear2024),
  .call (.event (.ask 3 (.completeRow ⟨.ofNat 8⟩ .newYear2024))),
  .call (.event (.commit 3)),
  .goOn 2,
  .goOn 2,
  .goOn 2,
  .goOn 2,
  .endScan 2,
  .call (.event .start),
  .call (.event (.ask 4 (.holdOrder ⟨.ofNat 7⟩))),
  .call (.event (.setAvailable false)),
  .call (.event (.commit 4))]

theorem locks_owned_settledMeanwhile :
    ∃ reports c, InUse.trace settledMeanwhile = some (reports, c) ∧
      reports = [⟨.claim 5 .newYear2024, [], [numberedRow 9], [.row ⟨.ofNat 9⟩]⟩] ∧
      c.store.locks = [(.row ⟨.ofNat 9⟩, 2)] ∧ LocksOwned c reports := by
  have hruns : (InUse.trace settledMeanwhile).map (fun c => (c.1, c.2.store.locks)) =
      some ([⟨.claim 5 .newYear2024, [], [numberedRow 9], [.row ⟨.ofNat 9⟩]⟩],
        [(.row ⟨.ofNat 9⟩, 2)]) := rfl
  obtain ⟨⟨reports, c⟩, hrun, heq⟩ := Option.map_eq_some_iff.mp hruns
  obtain ⟨hreports, hlocks⟩ := Prod.mk.inj heq
  exact ⟨reports, c, hrun, hreports, hlocks, locks_owned hrun⟩

end owned

end OrderFlow.Store
