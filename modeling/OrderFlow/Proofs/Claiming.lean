import OrderFlow.Poll.Claim
import OrderFlow.Proofs.Listing
import OrderFlow.Proofs.Transact

/-! # What a claim does

    A claim frees stale rows and then leases due ones, each in a transaction
    of its own, while others may hold any locks.  Both pass over locked rows
    and so never wait, and what they do is determined by the committed rows
    and by the locks: which rows are freed (`Store.freed`), which of them
    are claimed, in which order, and what the outbox is afterwards
    (`Claimant.Claims`). -/

namespace OrderFlow

open Attempt

namespace Store

/-- Does nobody hold the row's lock? -/
def unlocked (s : Store) (e : OutboxRow) : Bool :=
  (s.locks.find? (.row e.id)).isNone

/-- The rows that are leased since before `limit`, and that nobody holds. -/
def releasable (s : Store) (limit : Instant) : List OutboxRow :=
  s.listRows.filter fun e => e.isStale limit && s.unlocked e

/-- The rows that are due at `now`, and that nobody holds, oldest first. -/
def claimable (s : Store) (now : Instant) : List OutboxRow :=
  s.listRows.filter fun e => e.isDue now && s.unlocked e

/-- The row without its lease, if that is stale and nobody holds the row. -/
def freed (s : Store) (limit : Instant) (e : OutboxRow) : OutboxRow :=
  if e.isStale limit && s.unlocked e then e.endLease else e

/-! ## Several locks at once -/

section ready
variable {t : TxId} {s left : Store} {tx tx' : Transaction} {keys more : List LockKey}

/-- Other locks that can be had at once. -/
theorem Ready.withKeys (h : Ready t tx keys left s) (hfree : ∀ k ∈ more, s.lockable t k = true) :
    Ready t tx more left s :=
  { h with free := hfree }

/-- Staging writes under locks that it holds. -/
theorem Ready.update (h : Ready t tx keys left s) (horderly : tx'.Orderly)
    (hheld : tx'.held = tx.held) : Ready t tx' keys left (s.update t tx') := by
  have hp := progress_update h.opened hheld
  refine ⟨h.orderly.progress hp horderly, hp.after, ?_, ?_⟩
  · intro k hk
    rw [hp.lockable_eq]
    exact h.free k hk
  · rw [close_update, h.left]

theorem Ready.take {key : LockKey} (h : Ready t tx keys left s) (hkey : key ∈ keys) :
    Ready t (tx.hold key) keys left (s.take t key) := by
  have hp := progress_take h.opened (h.free key hkey)
  refine ⟨h.orderly.progress hp ((h.orderly.each h.opened).hold key), hp.after, ?_, ?_⟩
  · intro k hk
    rw [hp.lockable_eq]
    exact h.free k hk
  · rw [close_take (h.free key hkey), h.left]

theorem Ready.takeAll (h : Ready t tx keys left s) (hmore : ∀ k ∈ more, k ∈ keys) :
    Ready t (more.foldl Transaction.hold tx) keys left (s.takeAll t more) := by
  unfold Store.takeAll
  induction more generalizing s tx with
  | nil => exact h
  | cons key rest ih =>
    apply ih (h.take (hmore key List.mem_cons_self))
    intro k hk
    exact hmore k (List.mem_cons_of_mem key hk)

/-- The locks that a transaction can have at once are those that nobody else holds. -/
theorem Ready.lockable_eq (h : Ready t tx keys left s) (e : OutboxRow) :
    s.lockable t (.row e.id) = left.unlocked e := by
  have hlocks : left.locks.find? (.row e.id) =
      (s.locks.find? (.row e.id)).filter fun u => u ≠ t := by
    rw [← h.left]
    exact h.orderly.locks.find?_filter _ _
  unfold lockable unlocked
  rw [hlocks]
  cases s.locks.find? (.row e.id) with
  | none => rfl
  | some u => by_cases hu : u = t <;> simp [hu, Option.filter_some]

/-- What a transaction that has staged nothing finds and can lock. -/
theorem Ready.lockableRows_eq (h : Ready t {} keys left s) (p : OutboxRow → Bool) :
    s.lockableRows t {} p = left.listRows.filter fun e => p e && left.unlocked e := by
  have hlisting : s.listRows = left.listRows := by
    unfold listRows
    rw [h.sameTables.rows]
  unfold lockableRows
  rw [rowsIn_empty, hlisting]
  apply List.filter_congr
  intro e he
  rw [h.lockable_eq]

/-- Rows that are changed under their locks. -/
theorem putRows_orderly {rows : List OutboxRow} {f : OutboxRow → OutboxRow} (htx : tx.Orderly)
    (hf : KeepsId f) (hheld : ∀ e ∈ rows, LockKey.row e.id ∈ tx.held) :
    (tx.putRows (rows.map fun e => (e.id, f e))).Orderly := by
  apply htx.putRows
  · intro entry hentry
    obtain ⟨e, -, rfl⟩ := List.mem_map.mp hentry
    exact hf e
  · intro entry hentry
    obtain ⟨e, he, rfl⟩ := List.mem_map.mp hentry
    exact hheld e he

theorem row_mem_rowKeys {rows : List OutboxRow} {e : OutboxRow} (he : e ∈ rows) :
    LockKey.row e.id ∈ rowKeys rows :=
  List.mem_map_of_mem he

/-- The rows that a transaction finds and can lock are locked by it. -/
theorem Ready.lockRows (h : Ready t {} keys left s) {p : OutboxRow → Bool}
    (rows : List OutboxRow) (hrows : ∀ e ∈ rows, e ∈ s.lockableRows t {} p) :
    Ready t ((rowKeys rows).foldl Transaction.hold {}) (rowKeys rows) left
      (s.takeAll t (rowKeys rows)) := by
  refine (h.withKeys ?_).takeAll fun k hk => hk
  intro k hk
  obtain ⟨e, he, rfl⟩ := List.mem_map.mp hk
  exact (mem_lockableRows.mp (hrows e he)).2.2

/-- **Stale leases end** at once. -/
theorem gives_endStaleLeases (limit : Instant) :
    Gives (Ready t {} [] left) (endStaleLeases t limit) (left.releasable limit).length
      (Ready t (((rowKeys (left.releasable limit)).foldl Transaction.hold {}).putRows
        ((left.releasable limit).map fun e => (e.id, e.endLease))) [] left) := by
  intro s hs
  have hstale : (s.lockableRows t {} fun e => e.isStale limit) = left.releasable limit :=
    hs.lockableRows_eq _
  have hlocked := hs.lockRows (left.releasable limit) fun e he => hstale ▸ he
  have horderly := putRows_orderly (f := OutboxRow.endLease)
    (hlocked.orderly.each hlocked.opened) (fun _ => rfl)
    (fun e he => mem_held_foldl_hold.mpr (Or.inl (row_mem_rowKeys he)))
  refine ⟨_, ?_, (hlocked.update horderly rfl).withKeys fun k hk => (List.not_mem_nil hk).elim⟩
  have hopened := hlocked.opened
  unfold rowKeys at hopened
  unfold endStaleLeases
  rw [hs.opened]
  dsimp only
  rw [hstale, hopened]
  rfl

/-- **Due rows are claimed** at once. -/
theorem gives_claimDue (limit : Nat) (now : Instant) :
    Gives (Ready t {} [] left) (claimDue t limit now) ((left.claimable now).take limit)
      (Ready t ((rowKeys ((left.claimable now).take limit)).foldl Transaction.hold {})
        (rowKeys ((left.claimable now).take limit)) left) := by
  intro s hs
  have hdue : (s.lockableRows t {} fun e => e.isDue now) = left.claimable now :=
    hs.lockableRows_eq _
  have hlocked := hs.lockRows ((left.claimable now).take limit) fun e he =>
    hdue ▸ List.mem_of_mem_take he
  refine ⟨_, ?_, hlocked⟩
  unfold claimDue
  rw [hs.opened]
  dsimp only
  rw [hdue]
  rfl

/-- A row that the transaction finds and can lock is changed at once. -/
theorem gives_changeRow {id : RowId} {f : OutboxRow → OutboxRow} {e : OutboxRow}
    (hf : KeepsId f) (hkey : .row id ∈ keys) (hrow : left.rowIn tx id = some e) :
    Gives (Ready t tx keys left) (changeRow t id f) ()
      (Ready t ((tx.hold (.row id)).putRow id (f e)) keys left) := by
  refine gives_underLock (changeRow_eq t id f) hkey ?_ (fun h hs => h.changeRow hf hs) ?_
  · intro s tx
    split <;> rfl
  · intro s hsame
    rw [rowIn_hold, hsame.rowIn, hrow]
    rfl

/-- **Rows are leased** whose locks the transaction holds. -/
theorem gives_leaseAll (c : Claimant) (now : Instant) {rows : List OutboxRow}
    (hdistinct : (rows.map (·.id)).Nodup)
    (hrows : ∀ e ∈ rows, left.rowIn tx e.id = some e)
    (hheld : ∀ e ∈ rows, LockKey.row e.id ∈ tx.held)
    (hkeys : ∀ e ∈ rows, LockKey.row e.id ∈ keys) :
    Gives (Ready t tx keys left) (c.leaseAll t now rows) ()
      (Ready t (tx.putRows (rows.map fun e => (e.id, e.lease now c.name))) keys left) := by
  induction rows generalizing tx with
  | nil => exact fun s hs => ⟨s, rfl, hs⟩
  | cons e rest ih =>
    obtain ⟨hapart, hdistinct⟩ := List.pairwise_cons.mp (List.pairwise_map.mp hdistinct)
    have hfirst : Gives (Ready t tx keys left) (leaseRow t e.id now c.name) ()
        (Ready t ((tx.hold (.row e.id)).putRow e.id (e.lease now c.name)) keys left) :=
      gives_changeRow (fun _ => rfl) (hkeys e List.mem_cons_self) (hrows e List.mem_cons_self)
    rw [Transaction.hold_of_mem (hheld e List.mem_cons_self)] at hfirst
    -- The other rows are not touched by the first lease.
    have hother : ∀ e' ∈ rest,
        left.rowIn (tx.putRow e.id (e.lease now c.name)) e'.id = some e' := by
      intro e' he'
      rw [rowIn_putRow, if_neg (hapart e' he')]
      exact hrows e' (List.mem_cons_of_mem e he')
    have hrest := ih (List.pairwise_map.mpr hdistinct) hother
      (fun e' he' => hheld e' (List.mem_cons_of_mem e he'))
      (fun e' he' => hkeys e' (List.mem_cons_of_mem e he'))
    intro s hs
    obtain ⟨s₁, hlease, hs₁⟩ := hfirst s hs
    obtain ⟨s₂, hleases, hs₂⟩ := hrest s₁ hs₁
    exact ⟨s₂, bind_eq_ok_iff.mpr ⟨(), s₁, hlease, hleases⟩, hs₂⟩

end ready

/-! ## The rows afterwards -/

/-- Committed rows are put over the table in which they are found, each of them
    changed. -/
theorem find?_putAll_changed {table : Table RowId OutboxRow} {rows : List OutboxRow}
    {f : OutboxRow → OutboxRow} (htable : table.Keyed OutboxRow.id)
    (hdistinct : (rows.map (·.id)).Nodup) (hrows : ∀ e ∈ rows, table.find? e.id = some e)
    (id : RowId) :
    (table.putAll (Table.putAll [] (rows.map fun e => (e.id, f e)))).find? id =
      (table.find? id).map fun e => if e ∈ rows then f e else e := by
  have hkeys : Table.Distinct (rows.map fun e => (e.id, f e)) := by
    unfold Table.Distinct Table.keys
    rw [List.map_map]
    exact hdistinct
  have hstaged := Table.find?_putAll (t := ([] : Table RowId OutboxRow)) hkeys id
  rw [Table.find?_putAll (Table.distinct_nil.putAll _), hstaged]
  by_cases hid : ∃ e ∈ rows, e.id = id
  · obtain ⟨e, he, rfl⟩ := hid
    have hchanged : Table.find? (rows.map fun e => (e.id, f e)) e.id = some (f e) :=
      hkeys.find?_eq_some_iff.mpr (List.mem_map.mpr ⟨e, he, rfl⟩)
    rw [hchanged, hrows e he, Option.map_some, if_pos he]
    rfl
  · have hnone : Table.find? (rows.map fun e => (e.id, f e)) id = none := by
      rw [Table.find?_eq_none_iff]
      intro hmem
      obtain ⟨entry, hentry, rfl⟩ := List.mem_map.mp hmem
      obtain ⟨e, he, rfl⟩ := List.mem_map.mp hentry
      exact hid ⟨e, he, rfl⟩
    rw [hnone]
    show table.find? id = _
    cases hfound : table.find? id with
    | none => rfl
    | some e =>
      -- A row that is found there has this id, so it is none of those that change.
      have hnot : e ∉ rows := fun he => hid ⟨e, he, htable.own hfound⟩
      rw [Option.map_some, if_neg hnot]

/-- A transaction that has locked rows and staged changes of them. -/
theorem absorb_putRows (s : Store) (keys : List LockKey) (changed : Table RowId OutboxRow) :
    s.absorb ((keys.foldl Transaction.hold {}).putRows changed) =
      { s with rows := s.rows.putAll (Table.putAll [] changed) } := by
  unfold absorb Transaction.putRows
  rw [foldl_hold_orders, foldl_hold_rows, foldl_hold_deadLetters]
  rfl

theorem Orderly.listRows_sorted {s : Store} (h : s.Orderly) :
    s.listRows.Pairwise fun a b => a.listingKey < b.listingKey := by
  apply pairwise_sortRows
  rw [h.rows.map_values]
  exact h.rows.distinct

end Store

/-! ## Two transactions -/

section claim
variable {w w' : World} {c : Claimant} {now : Instant} {f : OutboxRow → OutboxRow}

/-- **Rows were rewritten** in one transaction, each as `f` says, and there is nothing else
    that is new. -/
structure World.Rewritten (w : World) (f : OutboxRow → OutboxRow) (w' : World) : Prop where
  orderly : w'.store.Orderly
  rest : w' = { w with store :=
    { w.store with rows := w'.store.rows, nextTx := w.store.nextTx + 1 } }
  rows : ∀ id, w'.store.rows.find? id = (w.store.rows.find? id).map f

/-- The listing has the same rows, rewritten, in the same order. -/
theorem World.Rewritten.listRows (h : w.Rewritten f w') (hw : w.store.Orderly)
    (hkey : ∀ e, (f e).listingKey = e.listingKey) :
    w'.store.listRows = w.store.listRows.map f := by
  have hid (e : OutboxRow) : (f e).id = e.id := OutboxRow.id_of_listingKey (hkey e)
  apply eq_of_pairwise_lt h.orderly.listRows_sorted
  · rw [List.pairwise_map]
    simp only [hkey]
    exact hw.listRows_sorted
  · intro e
    rw [h.orderly.mem_listRows_iff, h.rows, List.mem_map, Option.map_eq_some_iff]
    constructor
    · intro ⟨e₀, hfound, he⟩
      have hown : e₀.id = e.id := hw.rows.own hfound
      exact ⟨e₀, hw.mem_listRows_iff.mpr (hown ▸ hfound), he⟩
    · intro ⟨e₀, hlisted, he⟩
      have hfound := hw.mem_listRows_iff.mp hlisted
      rw [← hid e₀, he] at hfound
      exact ⟨e₀, hfound, he⟩

/-- The begin of a transaction uses up a number. -/
theorem World.opening_eq (hcalm : w.disturbances = []) :
    w.opening = { w with store := { w.store with nextTx := w.store.nextTx + 1 } } := by
  unfold opening
  rw [Call.nextDisturbance_eq hcalm]

/-- **A transaction that rewrites rows** commits, if the store is available and stays
    so. -/
theorem World.transact_rewrites {α : Type} {m : TxId → StoreCall α} {a : α}
    {rows : List OutboxRow} {locked : List LockKey} (hw : w.store.Orderly)
    (havailable : w.store.available = true) (hcalm : w.disturbances = [])
    (hlisted : rows.Sublist w.store.listRows)
    (hm : ∀ t, Gives (Store.Ready t {} [] w.opening.store) (m t) a
      (Store.Ready t ((locked.foldl Transaction.hold {}).putRows (rows.map fun e => (e.id, f e)))
        [] w.opening.store)) :
    ∃ w', Call.transact (fun t => Call.inStore (m t)) w = some (.ok a, w') ∧
      w.Rewritten (fun e => if e ∈ rows then f e else e) w' := by
  have hopening := opening_eq hcalm
  have hcalm' : w.opening.disturbances = [] := by
    rw [hopening]
    exact hcalm
  obtain ⟨t, w₁, hstart, hready⟩ := ready_opening hw (fun k hk => (List.not_mem_nil hk).elim)
    (by rwa [Call.nextDisturbance_eq hcalm])
  obtain ⟨w₂, hrun, hend⟩ := gives_inStore (hm t) w₁ hready
  have hstaged := hend.store.orderly.each hend.store.opened
  have hleft : w.opening.store.Orderly := by
    rw [← hend.store.left]
    exact hend.store.orderly.close t
  have horderly := hleft.absorb hstaged
  rcases hend.commit with ⟨hoffline, -⟩ | hcommit
  · rw [Call.nextDisturbance_eq hcalm', hopening] at hoffline
    change w.store.available = false at hoffline
    rw [havailable] at hoffline
    cases hoffline
  · rw [Call.nextDisturbance_eq hcalm'] at hcommit
    refine ⟨_, Call.transact_of_ok hstart hrun hcommit, horderly, ?_, ?_⟩
    · rw [Store.absorb_putRows, hopening]
    · intro id
      show (w.opening.store.absorb _).rows.find? id = _
      rw [Store.absorb_putRows, hopening]
      apply Store.find?_putAll_changed hw.rows
      · exact (hlisted.map _).nodup hw.listRows_nodup
      · intro e he
        exact hw.mem_listRows_iff.mp (hlisted.subset he)

/-- **Stale rows are freed.** -/
theorem Claimant.release_rewrites (c : Claimant) (now : Instant) (hw : w.store.Orderly)
    (havailable : w.store.available = true) (hcalm : w.disturbances = []) :
    ∃ w', c.release now w =
        some (.ok (w.store.releasable (now.earlier c.lockTimeout)).length, w') ∧
      w.Rewritten (w.store.freed (now.earlier c.lockTimeout)) w' := by
  have hstale : w.opening.store.releasable (now.earlier c.lockTimeout) =
      w.store.releasable (now.earlier c.lockTimeout) := by
    rw [World.opening_eq hcalm]
    rfl
  have hends (t : TxId) :=
    @Store.gives_endStaleLeases t w.opening.store (now.earlier c.lockTimeout)
  rw [hstale] at hends
  have hsome : (w.store.releasable (now.earlier c.lockTimeout)).Sublist w.store.listRows :=
    List.filter_sublist
  obtain ⟨w', hrelease, hrewritten⟩ :=
    World.transact_rewrites hw havailable hcalm hsome hends
  refine ⟨w', hrelease, hrewritten.orderly, hrewritten.rest, ?_⟩
  intro id
  rw [hrewritten.rows]
  cases hfound : w.store.rows.find? id with
  | none => rfl
  | some e =>
    -- Of the rows that there are, those are freed that are stale and can be locked.
    have hlisted : e ∈ w.store.listRows :=
      hw.mem_listRows_iff.mpr (hw.rows.own hfound ▸ hfound)
    have hmem : e ∈ w.store.releasable (now.earlier c.lockTimeout) ↔
        (e.isStale (now.earlier c.lockTimeout) && w.store.unlocked e) = true := by
      unfold Store.releasable
      rw [List.mem_filter]
      exact and_iff_right hlisted
    simp only [Option.map_some, hmem]
    rfl

/-- **Due rows are leased.** -/
theorem Claimant.lease_rewrites (c : Claimant) (now : Instant) (hw : w.store.Orderly)
    (havailable : w.store.available = true) (hcalm : w.disturbances = []) :
    ∃ w', c.lease now w = some (.ok ((w.store.claimable now).take c.batchSize), w') ∧
      w.Rewritten (fun e =>
        if e ∈ (w.store.claimable now).take c.batchSize then e.lease now c.name else e) w' := by
  have hdue : w.opening.store.claimable now = w.store.claimable now := by
    rw [World.opening_eq hcalm]
    rfl
  have hlisted : ((w.store.claimable now).take c.batchSize).Sublist w.store.listRows :=
    (List.take_sublist _ _).trans List.filter_sublist
  apply World.transact_rewrites hw havailable hcalm hlisted
  intro t s hs
  obtain ⟨s₁, hclaim, hs₁⟩ := Store.gives_claimDue c.batchSize now s hs
  rw [hdue] at hclaim hs₁
  have hrows : ∀ e ∈ (w.store.claimable now).take c.batchSize, w.opening.store.rowIn
      ((Store.rowKeys ((w.store.claimable now).take c.batchSize)).foldl Transaction.hold {}) e.id =
        some e := by
    intro e he
    have hfound := hw.mem_listRows_iff.mp (hlisted.subset he)
    rw [Store.rowIn_congr (congrArg (·.find? e.id) (Store.foldl_hold_rows _ _)),
      Store.rowIn_empty, World.opening_eq hcalm]
    exact hfound
  obtain ⟨s₂, hleases, hs₂⟩ := Store.gives_leaseAll c now
    ((hlisted.map _).nodup hw.listRows_nodup) hrows
    (fun e he => Store.mem_held_foldl_hold.mpr (Or.inl (Store.row_mem_rowKeys he)))
    (fun e he => Store.row_mem_rowKeys he) s₁ hs₁
  refine ⟨s₂, ?_, hs₂.withKeys fun k hk => (List.not_mem_nil hk).elim⟩
  exact bind_eq_ok_iff.mpr ⟨_, s₁, hclaim, bind_eq_ok_iff.mpr ⟨(), s₂, hleases, rfl⟩⟩

/-- **What a claim does**: how many rows it frees, which rows it answers, and what the outbox
    is afterwards.  The rest is as it was, and no lock is left behind. -/
structure Claimant.Claims (c : Claimant) (now : Instant) (w : World) (released : Nat)
    (rows : List OutboxRow) (w' : World) : Prop where
  /-- The leases from before the timeout end, of rows that nobody holds. -/
  count : released = w.store.listRows.countP fun e =>
    e.isStale (now.earlier c.lockTimeout) && w.store.unlocked e
  /-- The oldest rows that are due then, and that nobody holds, as they were before they were
      leased. -/
  claimed : rows = ((w.store.listRows.map (w.store.freed (now.earlier c.lockTimeout))).filter
    fun e => e.isDue now && w.store.unlocked e).take c.batchSize
  sorted : rows.Pairwise fun a b => a.listingKey < b.listingKey
  /-- Each row is freed if its lease was stale, and leased if it was claimed. -/
  outbox : ∀ id, w'.store.rows.find? id = (w.store.rows.find? id).map fun e =>
    if w.store.freed (now.earlier c.lockTimeout) e ∈ rows then
      (w.store.freed (now.earlier c.lockTimeout) e).lease now c.name
    else w.store.freed (now.earlier c.lockTimeout) e
  rest : w' = { w with store :=
    { w.store with rows := w'.store.rows, nextTx := w.store.nextTx + 2 } }

theorem Store.listingKey_freed (s : Store) (limit : Instant) (e : OutboxRow) :
    (s.freed limit e).listingKey = e.listingKey := by
  unfold freed
  split <;> rfl

/-- **A claim hands out exactly the due work**, oldest first, whatever else is in the
    outbox and whoever holds rows, as long as the store is available. -/
theorem claims_due_rows (c : Claimant) (now : Instant) (hw : w.store.Orderly)
    (havailable : w.store.available = true) (hcalm : w.disturbances = []) :
    ∃ released rows w', c.claim now w = some (.ok (released, rows), w') ∧
      c.Claims now w released rows w' := by
  obtain ⟨w₁, hrelease, hfreed⟩ := c.release_rewrites now hw havailable hcalm
  have havailable₁ : w₁.store.available = true := by
    rw [hfreed.rest]
    exact havailable
  have hcalm₁ : w₁.disturbances = [] := by
    rw [hfreed.rest]
    exact hcalm
  obtain ⟨w', hlease, hleased⟩ := c.lease_rewrites now hfreed.orderly havailable₁ hcalm₁
  have hlisting : w₁.store.listRows =
      w.store.listRows.map (w.store.freed (now.earlier c.lockTimeout)) :=
    hfreed.listRows hw (Store.listingKey_freed _ _)
  have hclaimed : w₁.store.claimable now =
      (w.store.listRows.map (w.store.freed (now.earlier c.lockTimeout))).filter
        fun e => e.isDue now && w.store.unlocked e := by
    unfold Store.claimable
    rw [hlisting, hfreed.rest]
    rfl
  rw [hclaimed] at hlease hleased
  refine ⟨_, _, w', bind_eq_ok_iff.mpr ⟨_, w₁, hrelease, bind_eq_ok_iff.mpr
    ⟨_, w', hlease, rfl⟩⟩, ?_, rfl, ?_, ?_, ?_⟩
  · rw [List.countP_eq_length_filter]
    rfl
  · have hsorted := hfreed.orderly.listRows_sorted
    rw [hlisting] at hsorted
    exact hsorted.sublist ((List.take_sublist _ _).trans List.filter_sublist)
  · intro id
    rw [hleased.rows, hfreed.rows, Option.map_map]
    rfl
  · rw [hleased.rest, hfreed.rest]

/-- A row that is due, made `seconds` after the new year. -/
def waitingRow (n seconds : Nat) : OutboxRow :=
  .fresh ⟨.ofNat n⟩ ⟨.ofNat n⟩ OutboxRow.orderCreatedType ""
    (Instant.newYear2024.later (.ofSeconds seconds))

/-- A minute after the new year the lease of the first row is sixty seconds old, and that of
    the third one just thirty. -/
def busyRows : List OutboxRow := [
  (waitingRow 1 0).lease .newYear2024 "gone",
  waitingRow 2 1,
  (waitingRow 3 2).lease (Instant.newYear2024.later (.ofSeconds 30)) "slow",
  waitingRow 4 3,
  waitingRow 5 4]

/-- The second row is locked by an open transaction. -/
def busyOutbox : Store :=
  (Store.begun { rows := busyRows.map fun e => (e.id, e) }).take 1 (.row ⟨.ofNat 2⟩)

theorem busyOutbox_orderly : busyOutbox.Orderly := by
  have hrows : Table.Keyed OutboxRow.id (busyRows.map fun e => (e.id, e)) :=
    Table.keyed_map (by decide)
  have hstore : Store.Orderly { rows := busyRows.map fun e => (e.id, e) } :=
    { Store.orderly_empty with rows := hrows }
  have hopened : (Store.begun { rows := busyRows.map fun e => (e.id, e) }).opened.find? 1 =
      some {} := rfl
  exact hstore.start.progress (Store.progress_take hopened rfl)
    ((hstore.start.each hopened).hold _)

/-- The row whose lease is stale is claimed again and the locked one is passed over; the last
    one is too many. -/
theorem claims_due_rows_busy :
    ∃ w', (Claimant.mk "worker" 2 (.ofSeconds 30)).claim
        (Instant.newYear2024.later (.ofSeconds 60)) { store := busyOutbox } =
          some (.ok (1, [waitingRow 1 0, waitingRow 4 3]), w') ∧
      (Claimant.mk "worker" 2 (.ofSeconds 30)).Claims
        (Instant.newYear2024.later (.ofSeconds 60)) { store := busyOutbox } 1
        [waitingRow 1 0, waitingRow 4 3] w' := by
  obtain ⟨released, rows, w', hclaim, hclaims⟩ := claims_due_rows (w := { store := busyOutbox })
    (Claimant.mk "worker" 2 (.ofSeconds 30)) (Instant.newYear2024.later (.ofSeconds 60))
    busyOutbox_orderly rfl rfl
  obtain rfl : released = 1 := by
    rw [hclaims.count]
    decide +kernel
  obtain rfl : rows = [waitingRow 1 0, waitingRow 4 3] := by
    rw [hclaims.claimed]
    decide +kernel
  exact ⟨w', hclaim, hclaims⟩

end claim

end OrderFlow
