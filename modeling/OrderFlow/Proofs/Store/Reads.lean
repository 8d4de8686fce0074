import OrderFlow.Proofs.Listing
import OrderFlow.Proofs.Store.History

/-! # Reads and commits agree

    A transaction reads rows one by one and in listings; it counts them,
    claims them and ends their leases.  Each of these lays what it has
    staged over what is committed in a way of its own, and so does its
    commit.

    They all agree: there is one listing of rows and one of dead letters
    that every read answers from (`Sees`), and that is what the commit leaves
    behind (`Leaves`).  Until then nobody else sees anything of it: what the
    others read depends on the committed tables and on what they have staged
    themselves (`SameReads.of_sameTables`). -/

namespace OrderFlow

/-! ## Staged letters -/

namespace Transaction

variable {tx : Transaction}

/-- A staged letter stands under its order's id. -/
theorem Orderly.mem_stagedLetters_iff (h : tx.Orderly) {d : DeadLetter} :
    d ∈ tx.deadLetters.values.filterMap id ↔ tx.deadLetters.find? d.order = some (some d) := by
  rw [List.mem_filterMap]
  constructor
  · rintro ⟨staged, hstaged, rfl⟩
    obtain ⟨⟨k, _⟩, hmem, rfl⟩ := List.mem_map.mp hstaged
    have hfound := h.deadLetters.find?_eq_some_iff.mpr hmem
    exact (h.letterOwn hfound).symm ▸ hfound
  · intro hfound
    exact ⟨some d, Table.mem_values_of_find? hfound, rfl⟩

/-- No order has two staged letters. -/
theorem Orderly.stagedLetters_nodup (h : tx.Orderly) :
    ((tx.deadLetters.values.filterMap id).map (·.order)).Nodup := by
  have hkeys : tx.deadLetters.Pairwise fun a b => a.1 ≠ b.1 := List.pairwise_map.mp h.deadLetters
  have hown {e : OrderId × Option DeadLetter} (he : e ∈ tx.deadLetters) {d : DeadLetter}
      (hd : e.2 = some d) : d.order = e.1 := by
    refine h.letterOwn (h.deadLetters.find?_eq_some_iff.mpr ?_)
    rwa [← hd]
  unfold Table.values
  rw [List.Nodup, List.pairwise_map, List.filterMap_map, List.pairwise_filterMap]
  refine hkeys.imp_of_mem ?_
  intro a b ha hb hne d hd d' hd' heq
  exact hne ((hown ha hd).symm.trans (heq.trans (hown hb hd')))

end Transaction

namespace Store

/-! ## What a transaction sees -/

/-- **What transaction `t` sees**: the listings that its reads answer from. -/
structure Sees (s : Store) (t : TxId) (rows : List OutboxRow) (letters : List DeadLetter) :
    Prop where
  /-- The rows are in strict order, oldest first. -/
  rowsSorted : rows.Pairwise fun a b => a.listingKey < b.listingKey
  rowsOnce : (rows.map (·.id)).Nodup
  row : ∀ id, readRow t id s = some (.ok (rows.find? fun e => e.id = id), s)
  claim : ∀ limit now, ∃ s', claimDue t limit now s =
    some (.ok ((rows.filter fun e => e.isDue now && s.lockable t (.row e.id)).take limit), s')
  release : ∀ limit, ∃ s', endStaleLeases t limit s =
    some (.ok (rows.filter fun e => e.isStale limit && s.lockable t (.row e.id)).length, s')
  backlog : countBacklog t s =
    some (.ok ⟨rows.countP (·.status = .pending), rows.countP (·.status = .processing)⟩, s)
  /-- The letters are in strict order, newest first. -/
  lettersSorted : letters.Pairwise fun a b => a.listingKey < b.listingKey
  lettersOnce : (letters.map (·.order)).Nodup
  letter : ∀ id, readLetter t id s = some (.ok (letters.find? fun d => d.order = id), s)
  allLetters : Store.allLetters t s = some (.ok letters, s)
  latest : ∀ limit,
    latestLetters t limit s = some (.ok (letters.take (DeadLetter.clampLimit limit)), s)

/-! ## Listings and what is found -/

section listings
variable {s s' : Store} {t u : TxId} {tx : Transaction}

/-- No id comes twice in what is laid over the committed rows. -/
theorem Orderly.rows_overlay_nodup (h : s.Orderly) (htx : tx.Orderly) :
    (((s.rows.values.filter fun e => (tx.rows.find? e.id).isNone) ++ tx.rows.values).map
      (·.id)).Nodup := by
  refine h.rows.nodup_overlay (fun id => (tx.rows.find? id).isNone) ?_ fun e he => ?_
  · rw [htx.rows.map_values]
    exact htx.rows.distinct
  · rw [htx.rows.mem_values_iff.mp he]
    rfl

/-- No order comes twice in what is laid over the committed letters. -/
theorem Orderly.letters_overlay_nodup (h : s.Orderly) (htx : tx.Orderly) :
    (((s.deadLetters.values.filter fun d => (tx.deadLetters.find? d.order).isNone) ++
      tx.deadLetters.values.filterMap id).map (·.order)).Nodup := by
  refine h.deadLetters.nodup_overlay (fun id => (tx.deadLetters.find? id).isNone)
    htx.stagedLetters_nodup fun d hd => ?_
  rw [htx.mem_stagedLetters_iff.mp hd]
  rfl

/-- The rows that are seen are in strict order. -/
theorem Orderly.rowsIn_sorted (h : s.Orderly) (htx : tx.Orderly) :
    (s.rowsIn tx).Pairwise fun a b => a.listingKey < b.listingKey :=
  pairwise_sortRows (h.rows_overlay_nodup htx)

theorem Orderly.rowsIn_nodup (h : s.Orderly) (htx : tx.Orderly) :
    ((s.rowsIn tx).map (·.id)).Nodup :=
  ((sortRows_perm _).map _).nodup_iff.mpr (h.rows_overlay_nodup htx)

/-- The letters that are seen are in strict order. -/
theorem Orderly.lettersIn_sorted (h : s.Orderly) (htx : tx.Orderly) :
    (s.lettersIn tx).Pairwise fun a b => a.listingKey < b.listingKey :=
  pairwise_sortLetters (h.letters_overlay_nodup htx)

theorem Orderly.lettersIn_nodup (h : s.Orderly) (htx : tx.Orderly) :
    ((s.lettersIn tx).map (·.order)).Nodup :=
  ((sortLetters_perm _).map _).nodup_iff.mpr (h.letters_overlay_nodup htx)

/-- The letters in a transaction's listing are the ones that it finds. -/
theorem Orderly.mem_lettersIn_iff (h : s.Orderly) (htx : tx.Orderly) {d : DeadLetter} :
    d ∈ s.lettersIn tx ↔ s.letterIn tx d.order = some d := by
  unfold lettersIn
  rw [(sortLetters_perm _).mem_iff, List.mem_append, List.mem_filter, h.deadLetters.mem_values_iff,
    htx.mem_stagedLetters_iff]
  unfold letterIn
  cases tx.deadLetters.find? d.order <;> simp

theorem Orderly.letterIn_order (h : s.Orderly) (htx : tx.Orderly) {id : OrderId} {d : DeadLetter}
    (hd : s.letterIn tx id = some d) : d.order = id := by
  unfold letterIn at hd
  cases hstaged : tx.deadLetters.find? id with
  | none =>
    rw [hstaged] at hd
    exact h.deadLetters.own hd
  | some staged =>
    rw [hstaged] at hd
    exact htx.letterOwn (hstaged.trans (congrArg some hd))

/-- **Every read** of an open transaction answers from its two listings. -/
theorem Orderly.sees (h : s.Orderly) (htx : s.opened.find? t = some tx) :
    s.Sees t (s.rowsIn tx) (s.lettersIn tx) := by
  have htxo := h.each htx
  have hview {α : Type} (f : Store → Transaction → α) :
      readView t f s = some (.ok (f s tx), s) := by
    unfold readView
    rw [htx]
  refine {
    rowsSorted := h.rowsIn_sorted htxo
    rowsOnce := h.rowsIn_nodup htxo
    row := fun id => ?_
    claim := fun limit now => ?_
    release := fun limit => ?_
    backlog := hview _
    lettersSorted := h.lettersIn_sorted htxo
    lettersOnce := h.lettersIn_nodup htxo
    letter := fun id => ?_
    allLetters := hview _
    latest := fun limit => hview _ }
  · have hfind : (s.rowsIn tx).find? (fun e => e.id = id) = s.rowIn tx id := by
      ext e
      rw [find?_id_eq_some_iff (h.rowsIn_nodup htxo), h.mem_rowsIn_iff htx]
      constructor
      · rintro ⟨he, rfl⟩
        exact he
      · intro he
        have hid := h.rowIn_id htx he
        exact ⟨hid.symm ▸ he, hid⟩
    rw [hfind]
    exact hview _
  · unfold Store.claimDue
    rw [htx]
    exact ⟨_, rfl⟩
  · have hfree : ∀ k ∈ rowKeys (s.lockableRows t tx fun e => e.isStale limit),
        s.lockable t k = true := by
      intro k hk
      obtain ⟨e, he, rfl⟩ := List.mem_map.mp hk
      exact (mem_lockableRows.mp he).2.2
    -- The call looks its transaction up once more, after the locks.
    have hafter := (progress_takeAll htx hfree).after
    unfold rowKeys at hafter
    unfold Store.endStaleLeases
    simp only [htx, hafter]
    exact ⟨_, rfl⟩
  · have hfind : (s.lettersIn tx).find? (fun d => d.order = id) = s.letterIn tx id := by
      ext d
      rw [find?_id_eq_some_iff (h.lettersIn_nodup htxo), h.mem_lettersIn_iff htxo]
      constructor
      · rintro ⟨hd, rfl⟩
        exact hd
      · intro hd
        have hid := h.letterIn_order htxo hd
        exact ⟨hid.symm ▸ hd, hid⟩
    rw [hfind]
    exact hview _

end listings

/-! ## What the others see -/

/-- **Transaction `u` reads the same** in both stores. -/
structure SameReads (u : TxId) (s s' : Store) : Prop where
  order : ∀ id, (readOrder u id s').map Prod.fst = (readOrder u id s).map Prod.fst
  row : ∀ id, (readRow u id s').map Prod.fst = (readRow u id s).map Prod.fst
  backlog : (countBacklog u s').map Prod.fst = (countBacklog u s).map Prod.fst
  letter : ∀ id, (readLetter u id s').map Prod.fst = (readLetter u id s).map Prod.fst
  allLetters : (Store.allLetters u s').map Prod.fst = (Store.allLetters u s).map Prod.fst
  latest : ∀ limit,
    (latestLetters u limit s').map Prod.fst = (latestLetters u limit s).map Prod.fst

/-- Nothing that is committed has changed. -/
structure SameCommitted (s s' : Store) : Prop where
  order : ∀ id, s'.orders.find? id = s.orders.find? id
  rows : s'.listRows = s.listRows
  letters : s'.listLetters = s.listLetters

/-- A step of transaction `t` that does not commit it. -/
def Entry.Uncommitted (t : TxId) : Entry → Prop
  | .claimed u _ | .released u _ _ | .asked u _ _ | .ended u => u = t
  | _ => False

section others
variable {s s' : Store} {t u : TxId} {tx : Transaction} {entry : Entry}

theorem SameTables.rowsIn (h : SameTables s s') (tx : Transaction) :
    s.rowsIn tx = s'.rowsIn tx := by
  unfold Store.rowsIn
  rw [h.rows]

theorem SameTables.lettersIn (h : SameTables s s') (tx : Transaction) :
    s.lettersIn tx = s'.lettersIn tx := by
  unfold Store.lettersIn
  rw [h.deadLetters]

theorem SameTables.committed (h : SameTables s s') : SameCommitted s s' where
  order id := by rw [h.orders]
  rows := by unfold listRows; rw [h.rows]
  letters := by unfold listLetters; rw [h.deadLetters]

/-- What a transaction reads depends on what is committed and on what it has
    staged itself. -/
theorem SameReads.of_sameTables (h : SameTables s s')
    (hopened : s'.opened.find? u = s.opened.find? u) : SameReads u s s' := by
  have hview {α : Type} {f : Store → Transaction → α} (hf : ∀ tx, f s tx = f s' tx) :
      (readView u f s').map Prod.fst = (readView u f s).map Prod.fst := by
    unfold readView
    rw [hopened]
    cases s.opened.find? u with
    | none => rfl
    | some tx => exact congrArg (fun a => some (Except.ok a)) (hf tx).symm
  refine ⟨fun id => hview fun tx => h.orderIn tx id, fun id => hview fun tx => h.rowIn tx id,
    hview fun tx => ?_, fun id => hview fun tx => h.letterIn tx id, hview fun tx => h.lettersIn tx,
    fun limit => hview fun tx => ?_⟩
  · rw [h.rowsIn]
  · rw [h.lettersIn]

/-- **A step that does not commit** leaves what is committed alone, and what
    anybody else has staged. -/
theorem Took.uncommitted (ht : Took s entry s') (h : entry.Uncommitted t) :
    SameTables s s' ∧ ∀ {u}, u ≠ t → s'.opened.find? u = s.opened.find? u := by
  cases ht with
  | claimed _ hp | released _ hp | asked hp =>
    obtain rfl : _ = t := h
    exact ⟨hp.sameTables, hp.others⟩
  | @ended v tx htx =>
    obtain rfl : v = t := h
    refine ⟨sameTables_close s v, fun {u} hu => ?_⟩
    rw [opened_close, if_neg (Ne.symm hu)]
  | started | committed | outside => cases h

end others

/-! ## What a commit leaves behind -/

/-- **A commit has left behind** what transaction `t` saw in `s`. -/
structure Leaves (s : Store) (t : TxId) (rows : List OutboxRow) (letters : List DeadLetter)
    (s' : Store) : Prop where
  order : ∀ id, readOrder t id s = some (.ok (s'.orders.find? id), s)
  rows : s'.listRows = rows
  letters : s'.listLetters = letters

/-- **Nobody else sees** what transaction `t` has staged: the others read the same
    whatever it is, and a step that does not commit changes nothing for them. -/
structure Hides (s : Store) (t : TxId) : Prop where
  staged : ∀ tx {u}, u ≠ t → SameReads u s (s.update t tx)
  step : ∀ {m entry s'}, Move.run m s = some (entry, s') → entry.Uncommitted t →
    SameCommitted s s' ∧ ∀ {u}, u ≠ t → SameReads u s s'

section commits
variable {s s' : Store} {t : TxId} {tx : Transaction}

theorem Orderly.hides (h : s.Orderly) (t : TxId) : s.Hides t where
  staged tx u hu := by
    refine .of_sameTables ⟨rfl, rfl, rfl⟩ ?_
    simp [update, Ne.symm hu]
  step hrun huncommitted := by
    obtain ⟨htables, hothers⟩ := (Move.run_took h hrun).1.uncommitted huncommitted
    exact ⟨htables.committed, fun hu => .of_sameTables htables (hothers hu)⟩

/-- A transaction that has only just begun lists the committed letters. -/
theorem lettersIn_empty (s : Store) : s.lettersIn {} = s.listLetters := by
  have hall : s.deadLetters.values.filter
      (fun d => (Table.find? ([] : Table OrderId (Option DeadLetter)) d.order).isNone) =
        s.deadLetters.values := by
    simp [Table.find?]
  unfold lettersIn listLetters
  rw [hall]
  simp [Table.values]

/-- **A commit** leaves behind what its transaction has seen. -/
theorem Orderly.leaves (h : s.Orderly) (htx : s.opened.find? t = some tx)
    (hcommit : commit t s = some (.ok (), s')) :
    s.Leaves t (s.rowsIn tx) (s.lettersIn tx) s' := by
  obtain ⟨tx', htx', ⟨-, -, rfl⟩ | ⟨hr, -⟩⟩ := commit_eq_some hcommit
  · rw [htx, Option.some.injEq] at htx'
    subst htx'
    have htxo := h.each htx
    have hafter : ((s.absorb tx).close t).Orderly := (h.absorb htxo).close t
    refine ⟨fun id => ?_, ?_, ?_⟩
    · show readOrder t id s = some (.ok ((s.absorb tx).orders.find? id), s)
      rw [orders_absorb htxo]
      unfold readOrder readView
      rw [htx]
    · -- Both are in strict order, and have the same rows.
      have hsorted := hafter.rowsIn_sorted Transaction.orderly_empty
      rw [rowsIn_empty] at hsorted
      refine eq_of_pairwise_lt hsorted (h.rowsIn_sorted htxo) fun e => ?_
      rw [hafter.mem_listRows_iff, h.mem_rowsIn_iff htx, ← rows_absorb htxo]
      rfl
    · have hsorted := hafter.lettersIn_sorted Transaction.orderly_empty
      have hmem (d : DeadLetter) := hafter.mem_lettersIn_iff Transaction.orderly_empty (d := d)
      rw [lettersIn_empty] at hsorted hmem
      refine eq_of_pairwise_lt hsorted (h.lettersIn_sorted htxo) fun d => ?_
      rw [hmem, h.mem_lettersIn_iff htxo, ← deadLetters_absorb htxo]
      rfl
  · cases hr

/-- **Reads and commits agree.**  In every history, an open transaction has one
    listing of rows and one of letters that all its reads answer from, in
    strict order and with nothing twice; nobody else sees what it has staged;
    and if it commits now, that is what is committed then. -/
theorem reads_agree_with_commit {history : List Move} {trail : List Entry}
    (h : trace history = some (trail, s)) (htx : s.opened.find? t = some tx) :
    ∃ rows letters, s.Sees t rows letters ∧ s.Hides t ∧
      ∀ {s'}, commit t s = some (.ok (), s') → s.Leaves t rows letters s' := by
  have hs := (happened_of_trace h).kept.orderly
  exact ⟨s.rowsIn tx, s.lettersIn tx, hs.sees htx, hs.hides t, hs.leaves htx⟩

end commits

/-! ## A transaction with writes of every kind -/

/-- A row with this number. -/
def numberedRow (n : Nat) : OutboxRow :=
  .fresh ⟨.ofNat n⟩ ⟨.ofNat 7⟩ OutboxRow.orderCreatedType "" .newYear2024

/-- A letter about the order with this number. -/
def numberedLetter (n : Nat) : DeadLetter :=
  ⟨⟨.ofNat n⟩, "gateway timeout", 3, .newYear2024⟩

/-- Transaction 1 commits a row and three letters.  Transaction 2 writes over
    the row, adds another one that is listed before it, takes one letter out
    and takes another one out and writes it again; transaction 3 is open as
    well. -/
def overlaidWrites : List Move := [
  .event .start,
  .event (.ask 1 (.writeRow (numberedRow 9))),
  .event (.ask 1 (.writeLetter (numberedLetter 4))),
  .event (.ask 1 (.writeLetter (numberedLetter 5))),
  .event (.ask 1 (.writeLetter (numberedLetter 6))),
  .event (.commit 1),
  .event .start,
  .event .start,
  .event (.ask 2 (.completeRow ⟨.ofNat 9⟩ .newYear2024)),
  .event (.ask 2 (.writeRow (numberedRow 8))),
  .event (.ask 2 (.dropLetter ⟨.ofNat 4⟩)),
  .event (.ask 2 (.dropLetter ⟨.ofNat 5⟩)),
  .event (.ask 2 (.writeLetter (numberedLetter 5)))]

theorem reads_agree_with_commit_overlaid :
    ∃ trail s tx, trace overlaidWrites = some (trail, s) ∧ s.opened.find? 2 = some tx ∧
      s.rowsIn tx = [numberedRow 8, (numberedRow 9).complete .newYear2024] ∧
      s.lettersIn tx = [numberedLetter 5, numberedLetter 6] ∧
      ∃ rows letters, s.Sees 2 rows letters ∧ s.Hides 2 ∧
        ∀ {s'}, commit 2 s = some (.ok (), s') → s.Leaves 2 rows letters s' := by
  have hruns : (trace overlaidWrites).isSome = true := rfl
  obtain ⟨⟨trail, s⟩, hrun⟩ := Option.isSome_iff_exists.mp hruns
  have hseen : ((trace overlaidWrites).bind fun c => (c.2.opened.find? 2).map fun tx =>
      (c.2.rowsIn tx, c.2.lettersIn tx)) =
        some ([numberedRow 8, (numberedRow 9).complete .newYear2024],
          [numberedLetter 5, numberedLetter 6]) := rfl
  rw [hrun, Option.bind_some] at hseen
  obtain ⟨tx, htx, hlistings⟩ := Option.map_eq_some_iff.mp hseen
  obtain ⟨hrows, hletters⟩ := Prod.mk.inj hlistings
  exact ⟨trail, s, tx, hrun, htx, hrows, hletters, reads_agree_with_commit hrun htx⟩

end Store

end OrderFlow
