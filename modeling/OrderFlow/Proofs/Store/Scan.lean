import Mathlib.Logic.Relation
import OrderFlow.Proofs.Store.Reads

/-! # Scans of the outbox

    A claim and the release of stale leases list the outbox when they begin and
    then come to one row after the other.  A row that is wanted is locked, if
    nobody else has its lock.  Others may have gone on since the listing, so the
    row is looked up again under the lock; if it is no longer wanted, the lock is
    given back, unless the transaction had it before (`Scan.step`).

    Without a pause between its steps a scan does what the call does
    (`Orderly.scan_claimDue`, `Orderly.scan_endStaleLeases`). -/

namespace OrderFlow.Store

/-! ## What a scan is for -/

/-- What a scan is for. -/
inductive Purpose where
  /-- To claim up to `limit` rows that are due at `now`. -/
  | claim (limit : Nat) (now : Instant)
  /-- To end the leases from before `limit`. -/
  | release (limit : Instant)
  deriving DecidableEq

namespace Purpose

/-- Does the scan look for the row? -/
def wants : Purpose → OutboxRow → Bool
  | .claim _ now, e => e.isDue now
  | .release limit, e => e.isStale limit

/-- As many of the rows as the scan may find. -/
def cut : Purpose → List OutboxRow → List OutboxRow
  | .claim limit _, rows => rows.take limit
  | .release _, rows => rows

/-- Has the scan found as many rows as it may? -/
def satisfied : Purpose → List OutboxRow → Bool
  | .claim limit _, found => limit ≤ found.length
  | .release _, _ => false

/-- What is staged when a row is found. -/
def stage : Purpose → Transaction → OutboxRow → Transaction
  | .claim _ _, tx, _ => tx
  | .release _, tx, e => tx.putRow e.id e.endLease

end Purpose

/-- A row whose lock a scan has taken and that it has yet to look up again. -/
structure Candidate where
  /-- The row. -/
  id : RowId
  /-- Had the transaction the lock before? -/
  already : Bool
  deriving DecidableEq

/-- A scan in progress. -/
structure Scan where
  /-- What it is for. -/
  purpose : Purpose
  /-- What its transaction held when it began. -/
  before : List LockKey
  /-- The rows of its listing that it has not come to. -/
  todo : List OutboxRow
  /-- The row that it is about to look up again. -/
  checking : Option Candidate := none
  /-- The rows that it has found, in the order of the listing. -/
  found : List OutboxRow := []
  deriving DecidableEq

/-- Transaction `t` gives a lock back. -/
def giveBack (s : Store) (t : TxId) (key : LockKey) : Store :=
  match s.opened.find? t with
  | none => s
  | some tx =>
    { s with
      locks := if s.locks.find? key = some t then s.locks.erase key else s.locks
      opened := s.opened.put t { tx with held := tx.held.filter fun k => k ≠ key } }

namespace Scan

/-- The scan as it begins. -/
def begin (purpose : Purpose) (s : Store) (tx : Transaction) : Scan where
  purpose := purpose
  before := tx.held
  todo := s.rowsIn tx

/-- Comes to the next row: takes its lock if the row is wanted and the lock
    can be had. -/
def tryLock (t : TxId) (s : Store) (tx : Transaction) (scan : Scan) (e : OutboxRow)
    (rest : List OutboxRow) : Store × Scan :=
  let key := LockKey.row e.id
  if scan.purpose.wants e ∧ (key ∈ tx.held ∨ s.lockable t key = true) then
    (s.take t key, { scan with todo := rest, checking := some ⟨e.id, key ∈ tx.held⟩ })
  else
    (s, { scan with todo := rest })

/-- Looks a row up again under its lock. -/
def recheck (t : TxId) (s : Store) (tx : Transaction) (scan : Scan) (c : Candidate) :
    Store × Scan :=
  match (s.rowIn tx c.id).filter scan.purpose.wants with
  | some e =>
    (s.update t (scan.purpose.stage tx e),
      { scan with checking := none, found := scan.found ++ [e] })
  | none =>
    (if c.already then s else s.giveBack t (.row c.id), { scan with checking := none })

/-- Has the scan come to its end? -/
def isOver (scan : Scan) : Bool :=
  scan.checking = none ∧ (scan.purpose.satisfied scan.found = true ∨ scan.todo = [])

/-- The next step of a scan of transaction `t`, unless it has come to its end. -/
def step (t : TxId) (c : Store × Scan) : Option (Store × Scan) :=
  match c.1.opened.find? t with
  | none => none
  | some tx =>
    match c.2.checking with
    | some candidate => some (c.2.recheck t c.1 tx candidate)
    | none =>
      if c.2.purpose.satisfied c.2.found then none
      else
        match c.2.todo with
        | [] => none
        | e :: rest => some (c.2.tryLock t c.1 tx e rest)

/-- Steps of a scan without a pause between them. -/
abbrev Steps (t : TxId) : Store × Scan → Store × Scan → Prop :=
  Relation.ReflTransGen fun c c' => step t c = some c'

end Scan

/-! ## What staging leaves alone -/

section stage
variable {p : Purpose} {tx : Transaction} {e : OutboxRow}

@[simp] theorem Purpose.held_stage (p : Purpose) (tx : Transaction) (e : OutboxRow) :
    (p.stage tx e).held = tx.held := by
  cases p <;> rfl

@[simp] theorem Purpose.held_foldl_stage (p : Purpose) (rows : List OutboxRow) (tx : Transaction) :
    (rows.foldl p.stage tx).held = tx.held := by
  induction rows generalizing tx with
  | nil => rfl
  | cons e rest ih => rw [List.foldl_cons, ih, held_stage]

/-- Taking a lock and staging may change places. -/
theorem Purpose.hold_stage (p : Purpose) (tx : Transaction) (e : OutboxRow) (key : LockKey) :
    (p.stage tx e).hold key = p.stage (tx.hold key) e := by
  cases p with
  | claim => rfl
  | release =>
    show (tx.putRow e.id e.endLease).hold key = (tx.hold key).putRow e.id e.endLease
    unfold Transaction.hold
    rw [Transaction.held_putRow]
    split <;> rfl

theorem Purpose.hold_foldl_stage (p : Purpose) (rows : List OutboxRow) (tx : Transaction)
    (key : LockKey) : (rows.foldl p.stage tx).hold key = rows.foldl p.stage (tx.hold key) := by
  induction rows generalizing tx with
  | nil => rfl
  | cons e rest ih => rw [List.foldl_cons, List.foldl_cons, ih, hold_stage]

theorem Purpose.orderly_stage (p : Purpose) (h : tx.Orderly) (hheld : .row e.id ∈ tx.held) :
    (p.stage tx e).Orderly := by
  cases p with
  | claim => exact h
  | release => exact h.putRow rfl hheld

theorem Purpose.orderly_foldl_stage (p : Purpose) {rows : List OutboxRow} (h : tx.Orderly)
    (hheld : ∀ e ∈ rows, LockKey.row e.id ∈ tx.held) : (rows.foldl p.stage tx).Orderly := by
  induction rows generalizing tx with
  | nil => exact h
  | cons e rest ih =>
    apply ih (p.orderly_stage h (hheld e List.mem_cons_self))
    intro e' he'
    rw [held_stage]
    exact hheld e' (List.mem_cons_of_mem e he')

/-- Of other rows nothing is staged. -/
theorem Purpose.find?_foldl_stage (p : Purpose) {rows : List OutboxRow} {id : RowId}
    (h : id ∉ rows.map (·.id)) (tx : Transaction) :
    (rows.foldl p.stage tx).rows.find? id = tx.rows.find? id := by
  induction rows generalizing tx with
  | nil => rfl
  | cons e rest ih =>
    rw [List.map_cons, List.mem_cons, not_or] at h
    rw [List.foldl_cons, ih h.2]
    cases p with
    | claim => rfl
    | release =>
      show Table.find? (tx.rows.put e.id e.endLease) id = _
      rw [Table.find?_put, if_neg (Ne.symm h.1)]

end stage

/-! ## A scan without a pause -/

section scan
variable {t : TxId} {s s' : Store} {tx tx' : Transaction} {p : Purpose} {before : List LockKey}
  {found todo : List OutboxRow} {e : OutboxRow}

/-- What a transaction has become that has found these rows. -/
def Purpose.staged (p : Purpose) (tx : Transaction) (found : List OutboxRow) : Transaction :=
  found.foldl p.stage ((rowKeys found).foldl Transaction.hold tx)

theorem Purpose.held_staged (p : Purpose) (tx : Transaction) (found : List OutboxRow) :
    (p.staged tx found).held = ((rowKeys found).foldl Transaction.hold tx).held :=
  p.held_foldl_stage _ _

/-- The store after a scan has found these rows. -/
def Purpose.leaves (p : Purpose) (t : TxId) (s : Store) (tx : Transaction)
    (found : List OutboxRow) : Store :=
  (s.takeAll t (rowKeys found)).update t (p.staged tx found)

theorem update_update (s : Store) (t : TxId) (tx tx' : Transaction) :
    (s.update t tx).update t tx' = s.update t tx' := by
  unfold update
  rw [Table.put_put]

/-- Taking a lock and staging may change places. -/
theorem take_update (htx : s.opened.find? t = some tx) (hheld : tx'.held = tx.held)
    (key : LockKey) : (s.update t tx').take t key = (s.take t key).update t (tx'.hold key) := by
  have hopened : (s.update t tx').opened.find? t = some tx' := by simp [update]
  by_cases hk : key ∈ tx.held
  · have hk' : key ∈ tx'.held := hheld ▸ hk
    rw [take_of_mem htx hk, take_of_mem hopened hk', Transaction.hold_of_mem hk']
  · have hk' : key ∉ tx'.held := hheld ▸ hk
    have hput : (s.opened.put t tx').put t { tx' with held := key :: tx'.held } =
        (s.opened.put t { tx with held := key :: tx.held }).put t
          { tx' with held := key :: tx'.held } := by
      rw [Table.put_put, Table.put_put]
    simp only [take, hopened, htx, hk, hk', if_false, Transaction.hold]
    simp only [update, hput]

theorem takeAll_append (s : Store) (t : TxId) (keys more : List LockKey) :
    s.takeAll t (keys ++ more) = (s.takeAll t keys).takeAll t more :=
  List.foldl_append

/-- **One more row** that is found. -/
theorem Purpose.leaves_snoc (htx : s.opened.find? t = some tx)
    (hfree : ∀ k ∈ rowKeys found, s.lockable t k = true) (p : Purpose) (e : OutboxRow) :
    p.leaves t s tx (found ++ [e]) =
      ((p.leaves t s tx found).take t (.row e.id)).update t
        (p.stage ((p.staged tx found).hold (.row e.id)) e) := by
  have hkeys : rowKeys (found ++ [e]) = rowKeys found ++ [.row e.id] := List.map_append
  have hopened := (progress_takeAll htx hfree).after
  have hstaged : p.staged tx (found ++ [e]) =
      p.stage ((p.staged tx found).hold (.row e.id)) e := by
    unfold staged
    rw [hkeys, List.foldl_append, List.foldl_append, p.hold_foldl_stage]
    rfl
  unfold leaves
  rw [take_update hopened (p.held_staged tx found), update_update, hstaged, hkeys, takeAll_append]
  rfl

theorem Purpose.progress_leaves (htx : s.opened.find? t = some tx)
    (hfree : ∀ k ∈ rowKeys found, s.lockable t k = true) (p : Purpose) :
    Progress t s tx (p.leaves t s tx found) (p.staged tx found) := by
  have htaken := progress_takeAll htx hfree
  exact htaken.trans (progress_update htaken.after (p.held_staged tx found))

theorem Orderly.scanned (h : s.Orderly) (htx : s.opened.find? t = some tx)
    (hfree : ∀ k ∈ rowKeys found, s.lockable t k = true) (p : Purpose) :
    (p.leaves t s tx found).Orderly := by
  refine h.progress (p.progress_leaves htx hfree) ?_
  refine p.orderly_foldl_stage ((h.each htx).foldl_hold _) fun e he => ?_
  exact mem_held_foldl_hold.mpr (Or.inl (List.mem_map_of_mem he))

/-- A lock that it holds a transaction can have. -/
theorem Orderly.lockable_of_held (h : s.Orderly) (htx : s.opened.find? t = some tx)
    {key : LockKey} (hk : key ∈ tx.held) : s.lockable t key = true := by
  rw [lockable_iff, h.owned.mpr ⟨tx, htx, hk⟩]
  simp

/-- **A row that is passed over.** -/
theorem Scan.step_skip (htx : s.opened.find? t = some tx) (hmore : p.satisfied found = false)
    (hskip : ¬ (p.wants e ∧ (LockKey.row e.id ∈ tx.held ∨ s.lockable t (.row e.id) = true))) :
    Scan.step t (s, ⟨p, before, e :: todo, none, found⟩) =
      some (s, ⟨p, before, todo, none, found⟩) := by
  unfold Scan.step
  simp only [htx, hmore, Bool.false_eq_true, if_false]
  unfold Scan.tryLock
  rw [if_neg hskip]

/-- **A row that is still wanted** when its lock is there. -/
theorem Scan.steps_find (htx : s.opened.find? t = some tx) (hmore : p.satisfied found = false)
    (hwants : p.wants e = true) (hfree : s.lockable t (.row e.id) = true)
    (hseen : s.rowIn tx e.id = some e) :
    Scan.Steps t (s, ⟨p, before, e :: todo, none, found⟩)
      ((s.take t (.row e.id)).update t (p.stage (tx.hold (.row e.id)) e),
        ⟨p, before, todo, none, found ++ [e]⟩) := by
  have hlock : Scan.step t (s, ⟨p, before, e :: todo, none, found⟩) =
      some (s.take t (.row e.id),
        ⟨p, before, todo, some ⟨e.id, LockKey.row e.id ∈ tx.held⟩, found⟩) := by
    unfold Scan.step
    simp only [htx, hmore, Bool.false_eq_true, if_false]
    unfold Scan.tryLock
    rw [if_pos ⟨hwants, Or.inr hfree⟩]
  have hcheck : Scan.step t (s.take t (.row e.id),
      ⟨p, before, todo, some ⟨e.id, LockKey.row e.id ∈ tx.held⟩, found⟩) =
        some ((s.take t (.row e.id)).update t (p.stage (tx.hold (.row e.id)) e),
          ⟨p, before, todo, none, found ++ [e]⟩) := by
    unfold Scan.step
    simp only [opened_take htx]
    unfold Scan.recheck
    simp only [rowIn_take htx, hseen, Option.filter_some, hwants, if_true]
  exact Relation.ReflTransGen.head hlock (.single hcheck)

/-- A scan that may find no more rows has found all that it may. -/
theorem Purpose.cut_of_satisfied (hmore : p.satisfied found = true) (hcut : p.cut found = found)
    (rows : List OutboxRow) : p.cut (found ++ rows) = found := by
  cases p with
  | claim limit now =>
    have hlimit : limit ≤ found.length := by simpa [satisfied] using hmore
    have hlength : found.length ≤ limit := by
      rw [← hcut]
      exact List.length_take_le limit found
    show (found ++ rows).take limit = found
    rw [Nat.le_antisymm hlimit hlength, List.take_left]
  | release => cases hmore

theorem Purpose.cut_snoc (hmore : p.satisfied found = false) (hcut : p.cut found = found)
    (e : OutboxRow) : p.cut (found ++ [e]) = found ++ [e] := by
  cases p with
  | claim limit now =>
    have hlimit : found.length < limit := by simpa [satisfied] using hmore
    apply List.take_of_length_le
    rw [List.length_append]
    exact hlimit
  | release => rfl

/-- A row that is wanted and can be locked is found, whatever was found before it. -/
theorem Scan.steps_found (before : List LockKey) (todo : List OutboxRow)
    (htx : s.opened.find? t = some tx) (hfree : ∀ k ∈ rowKeys found, s.lockable t k = true)
    (hmore : p.satisfied found = false) (hseen : s.rowIn tx e.id = some e)
    (hnew : e.id ∉ found.map (·.id)) (hwants : p.wants e = true)
    (hlockable : s.lockable t (.row e.id) = true) :
    Scan.Steps t (p.leaves t s tx found, ⟨p, before, e :: todo, none, found⟩)
      (p.leaves t s tx (found ++ [e]), ⟨p, before, todo, none, found ++ [e]⟩) := by
  have hp := p.progress_leaves htx hfree
  have hagain : (p.leaves t s tx found).rowIn (p.staged tx found) e.id = some e := by
    rw [← hp.sameTables.rowIn, ← hseen]
    apply rowIn_congr
    rw [Purpose.staged, p.find?_foldl_stage hnew, foldl_hold_rows]
  have hlock : (p.leaves t s tx found).lockable t (.row e.id) = true := by
    rw [hp.lockable_eq, hlockable]
  rw [p.leaves_snoc htx hfree]
  exact Scan.steps_find hp.after hmore hwants hlock hagain

/-- Any other row is passed over. -/
theorem Orderly.step_skip (before : List LockKey) (todo : List OutboxRow) (h : s.Orderly)
    (htx : s.opened.find? t = some tx) (hfree : ∀ k ∈ rowKeys found, s.lockable t k = true)
    (hmore : p.satisfied found = false)
    (hnot : ¬ (p.wants e = true ∧ s.lockable t (.row e.id) = true)) :
    Scan.step t (p.leaves t s tx found, ⟨p, before, e :: todo, none, found⟩) =
      some (p.leaves t s tx found, ⟨p, before, todo, none, found⟩) := by
  have hp := p.progress_leaves htx hfree
  apply Scan.step_skip hp.after hmore
  rintro ⟨hwants, hlock⟩
  apply hnot
  refine ⟨hwants, ?_⟩
  -- A lock that the transaction already has could be had before the scan, too.
  rw [← hp.lockable_eq]
  rcases hlock with hheld | hlock
  · exact (h.scanned htx hfree p).lockable_of_held hp.after hheld
  · exact hlock

/-- **A scan without a pause** finds the rows that are wanted and can be locked,
    as many as it may. -/
theorem Orderly.steps_from (before : List LockKey) (h : s.Orderly)
    (htx : s.opened.find? t = some tx) (hseen : ∀ e ∈ todo, s.rowIn tx e.id = some e)
    (hids : ((found ++ todo).map (·.id)).Nodup)
    (hfree : ∀ k ∈ rowKeys found, s.lockable t k = true) (hcut : p.cut found = found) :
    ∃ all rest, all = p.cut (found ++
        todo.filter fun e => p.wants e && s.lockable t (.row e.id)) ∧
      Scan.Steps t (p.leaves t s tx found, ⟨p, before, todo, none, found⟩)
        (p.leaves t s tx all, ⟨p, before, rest, none, all⟩) ∧
      (p.satisfied all = true ∨ rest = []) := by
  -- By induction over the rows that are still to do, whatever has been found so far.
  induction todo generalizing found with
  | nil =>
    refine ⟨found, [], ?_, .refl, Or.inr rfl⟩
    rw [List.filter_nil, List.append_nil, hcut]
  | cons e todo ih =>
    cases hmore : p.satisfied found with
    | true => exact ⟨found, e :: todo, (p.cut_of_satisfied hmore hcut _).symm, .refl, Or.inl hmore⟩
    | false =>
      have hrest : ∀ e ∈ todo, s.rowIn tx e.id = some e :=
        fun e he => hseen e (List.mem_cons_of_mem _ he)
      by_cases hfind : p.wants e = true ∧ s.lockable t (.row e.id) = true
      · have hnew : e.id ∉ found.map (·.id) := by
          rw [List.map_append, List.nodup_append] at hids
          intro hmem
          exact hids.2.2 _ hmem _ List.mem_cons_self rfl
        have hfirst := Scan.steps_found before todo htx hfree hmore
          (hseen e List.mem_cons_self) hnew hfind.1 hfind.2
        have hfree' : ∀ k ∈ rowKeys (found ++ [e]), s.lockable t k = true := by
          intro k hk
          rcases List.mem_append.mp (List.map_append ▸ hk : k ∈ rowKeys found ++ rowKeys [e])
            with hk | hk
          · exact hfree k hk
          · rw [List.mem_singleton.mp hk, hfind.2]
        obtain ⟨all, rest, hall, hsteps, hover⟩ := ih hrest
          (by rwa [List.append_assoc]) hfree' (p.cut_snoc hmore hcut e)
        refine ⟨all, rest, ?_, hfirst.trans hsteps, hover⟩
        rw [hall, List.filter_cons_of_pos (by simpa using hfind), List.append_assoc]
        rfl
      · have hfirst := h.step_skip before todo htx hfree hmore hfind
        have hids' : ((found ++ todo).map (·.id)).Nodup := by
          apply List.Nodup.sublist _ hids
          exact ((List.sublist_cons_self e todo).append_left found).map _
        obtain ⟨all, rest, hall, hsteps, hover⟩ := ih hrest hids' hfree hcut
        refine ⟨all, rest, ?_, .head hfirst hsteps, hover⟩
        rw [hall, List.filter_cons_of_neg (by simpa using hfind)]

theorem Orderly.steps_begin (h : s.Orderly) (htx : s.opened.find? t = some tx) (p : Purpose) :
    ∃ all rest, all = p.cut (s.lockableRows t tx p.wants) ∧
      Scan.Steps t (s, Scan.begin p s tx) (p.leaves t s tx all, ⟨p, tx.held, rest, none, all⟩) ∧
      (p.satisfied all = true ∨ rest = []) := by
  have hbegin : p.leaves t s tx [] = s := update_of_opened htx
  have hseen : ∀ e ∈ s.rowsIn tx, s.rowIn tx e.id = some e :=
    fun e he => (h.mem_rowsIn_iff htx).mp he
  have hfree : ∀ k ∈ rowKeys [], s.lockable t k = true := by
    intro k hk
    cases hk
  have hnone : p.cut [] = [] := by cases p <;> simp [Purpose.cut]
  obtain ⟨all, rest, hall, hsteps, hover⟩ :=
    h.steps_from tx.held htx hseen (h.rowsIn_nodup (h.each htx)) hfree hnone
  rw [hbegin] at hsteps
  exact ⟨all, rest, hall, hsteps, hover⟩

/-- The rows that a scan finds can be locked. -/
theorem Purpose.lockable_of_mem_cut {k : LockKey}
    (hk : k ∈ rowKeys (p.cut (s.lockableRows t tx p.wants))) : s.lockable t k = true := by
  obtain ⟨e, he, rfl⟩ := List.mem_map.mp hk
  cases p with
  | claim => exact (mem_lockableRows.mp (List.mem_of_mem_take he)).2.2
  | release => exact (mem_lockableRows.mp he).2.2

/-- A claim stages nothing. -/
theorem Purpose.staged_claim (limit : Nat) (now : Instant) (tx : Transaction)
    (found : List OutboxRow) :
    Purpose.staged (.claim limit now) tx found = (rowKeys found).foldl Transaction.hold tx := by
  have hstage (rows : List OutboxRow) (tx : Transaction) :
      rows.foldl (Purpose.stage (.claim limit now)) tx = tx := by
    induction rows with
    | nil => rfl
    | cons e rest ih => exact ih
  exact hstage found _

/-- The release of stale leases stages the rows without them. -/
theorem Purpose.staged_release (limit : Instant) (tx : Transaction) (found : List OutboxRow) :
    Purpose.staged (.release limit) tx found =
      ((rowKeys found).foldl Transaction.hold tx).putRows
        (found.map fun e => (e.id, e.endLease)) := by
  have hstage (rows : List OutboxRow) (tx : Transaction) :
      rows.foldl (Purpose.stage (.release limit)) tx =
        tx.putRows (rows.map fun e => (e.id, e.endLease)) := by
    induction rows generalizing tx with
    | nil => rfl
    | cons e rest ih =>
      rw [List.foldl_cons, ih]
      rfl
  exact hstage found _

/-- **A claim** is a scan without a pause. -/
theorem Orderly.scan_claimDue (h : s.Orderly) (htx : s.opened.find? t = some tx) (limit : Nat)
    (now : Instant) : ∃ s' scan, Scan.Steps t (s, Scan.begin (.claim limit now) s tx) (s', scan) ∧
      scan.isOver = true ∧ Store.claimDue t limit now s = some (.ok scan.found, s') := by
  obtain ⟨all, rest, hall, hsteps, hover⟩ := h.steps_begin htx (.claim limit now)
  refine ⟨_, _, hsteps, by simpa [Scan.isOver] using hover, ?_⟩
  have hfree : ∀ k ∈ rowKeys all, s.lockable t k = true :=
    fun k hk => Purpose.lockable_of_mem_cut (hall ▸ hk)
  have hleaves : Purpose.leaves (.claim limit now) t s tx all = s.takeAll t (rowKeys all) := by
    unfold Purpose.leaves
    rw [Purpose.staged_claim, update_of_opened (progress_takeAll htx hfree).after]
  rw [hleaves, hall]
  unfold Store.claimDue
  rw [htx]
  rfl

/-- **The release of stale leases** is a scan without a pause. -/
theorem Orderly.scan_endStaleLeases (h : s.Orderly) (htx : s.opened.find? t = some tx)
    (limit : Instant) :
    ∃ s' scan, Scan.Steps t (s, Scan.begin (.release limit) s tx) (s', scan) ∧
      scan.isOver = true ∧
      Store.endStaleLeases t limit s = some (.ok scan.found.length, s') := by
  obtain ⟨all, rest, hall, hsteps, hover⟩ := h.steps_begin htx (.release limit)
  refine ⟨_, _, hsteps, by simpa [Scan.isOver] using hover, ?_⟩
  have hfree : ∀ k ∈ rowKeys all, s.lockable t k = true :=
    fun k hk => Purpose.lockable_of_mem_cut (hall ▸ hk)
  have hafter := (progress_takeAll htx hfree).after
  have hstale : s.lockableRows t tx (fun e => e.isStale limit) = all := hall.symm
  unfold rowKeys at hafter
  unfold Store.endStaleLeases
  simp only [htx, hstale, hafter]
  unfold Purpose.leaves
  rw [Purpose.staged_release]
  rfl

end scan

end OrderFlow.Store
