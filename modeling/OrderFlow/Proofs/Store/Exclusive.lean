import Mathlib.Data.List.Induction
import OrderFlow.Proofs.Store.Lease
import OrderFlow.Proofs.Store.Ownership

/-! # Exclusive claims among scans

    A claim that comes to one row after the other lets others go on between its
    steps.  So the listing that it began with may be out of date, and two scans
    may have listed the same row.  A row counts as claimed in the step in which
    the scan keeps it: when it has looked the row up again under its lock.

    Each step in a store in use leaves one entry (`Act.entry`).  A scan that keeps
    a row leaves what a claim of that row alone would leave; its other steps
    change nothing but locks (`Act.took`).  So what is known of claims in one step
    carries over, and claims among scans are just as exclusive
    (`scans_claim_exclusively`): while the claimant is open, others do not get the
    lock; and after its commit, whoever looks the row up again finds it closed. -/

namespace OrderFlow.Store

/-! ## The trail of a store in use -/

/-- The row that the scan keeps in its next step. -/
def Scan.keeps (scan : Scan) (s : Store) (tx : Transaction) : Option OutboxRow :=
  scan.checking.bind fun c => (s.rowIn tx c.id).filter scan.purpose.wants

/-- What happens when a scan of transaction `t` keeps a row. -/
def Purpose.entry (t : TxId) (e : OutboxRow) : Purpose → Entry
  | .claim _ _ => .claimed t [e]
  | .release limit => .released t limit [e]

/-- What happens in the next step of a scan of transaction `t`. -/
def Scan.entry (t : TxId) (s : Store) (scan : Scan) : Entry :=
  match (s.opened.find? t).bind (scan.keeps s) with
  | some e => scan.purpose.entry t e
  | none => .outside

/-- What happens in a step in a store in use. -/
def Act.entry : Act → InUse → Entry
  | .call m, c => (m.run c.store).elim .outside (·.1)
  | .goOn t, c => (c.scans.find? t).elim .outside (Scan.entry t c.store)
  | .read _ _, _ | .beginScan _ _, _ | .endScan _, _ => .outside

/-- The trail of a history of a store in use, if nobody has to wait. -/
def InUse.trail (history : List Act) : Option (List Entry × InUse) :=
  history.foldlM (fun c a => (a.run c.2).map fun p => (c.1 ++ [a.entry c.2], p.2)) ([], {})

/-! ## Steps that change nothing but locks -/

/-- **Only locks** were taken or given back. -/
structure Relocked (s s' : Store) : Prop where
  sameTables : SameTables s s'
  nextTx : s'.nextTx = s.nextTx
  /-- Who is open was, and had the same rows staged. -/
  opened : ∀ {u tx'}, s'.opened.find? u = some tx' →
    ∃ tx, s.opened.find? u = some tx ∧ tx'.rows = tx.rows

section relocked
variable {s s' : Store} {t : TxId} {tx tx' : Transaction} {trail since : List Entry} {row : RowId}
  {lease : Option Instant}

theorem relocked_refl (s : Store) : Relocked s s where
  sameTables := ⟨rfl, rfl, rfl⟩
  nextTx := rfl
  opened hu := ⟨_, hu, rfl⟩

theorem Progress.relocked (hp : Progress t s tx s' tx') (hrows : tx'.rows = tx.rows) :
    Relocked s s' where
  sameTables := hp.sameTables
  nextTx := hp.nextTx
  opened := by
    intro u other hu
    by_cases hut : u = t
    · subst hut
      rw [hp.after, Option.some.injEq] at hu
      exact ⟨tx, hp.before, hu ▸ hrows⟩
    · rw [hp.others hut] at hu
      exact ⟨other, hu, rfl⟩

theorem Orderly.relocked_giveBack (h : s.Orderly) (htx : s.opened.find? t = some tx)
    {key : LockKey} (hk : key ∈ tx.held) : Relocked s (s.giveBack t key) where
  sameTables := by
    rw [h.giveBack_eq htx hk]
    exact ⟨rfl, rfl, rfl⟩
  nextTx := by rw [h.giveBack_eq htx hk]
  opened := by
    intro u other hu
    rw [h.opened_giveBack htx hk] at hu
    split at hu
    · next htu =>
      cases hu
      exact ⟨tx, htu ▸ htx, rfl⟩
    · exact ⟨other, hu, rfl⟩

/-- What is seen of the rows stays. -/
theorem Relocked.rowIn (h : Relocked s s') (hrows : tx'.rows = tx.rows) (row : RowId) :
    s'.rowIn tx' row = s.rowIn tx row :=
  (h.sameTables.rowIn tx' row).symm.trans (rowIn_congr (congrArg (·.find? row) hrows))

/-- It keeps what a trail keeps, if the claimants have the locks of their rows still. -/
theorem Kept.relocked (hk : Kept trail s) (h : Relocked s s') (horderly : s'.Orderly)
    (hheld : ∀ {u tx row}, s'.opened.find? u = some tx → (∃ x ∈ trail, x.Claims u row) →
      LockKey.row row ∈ tx.held) : Kept (trail ++ [.outside]) s' where
  orderly := horderly
  enqueued := by
    intro tx' row e hc he
    refine mem_snoc_iff.mpr (Or.inl ?_)
    rcases hc with rfl | ⟨u, hu⟩
    · rw [h.rowIn rfl] at he
      exact hk.enqueued (current_empty s) he
    · obtain ⟨tx, htx, hrows⟩ := h.opened hu
      rw [h.rowIn hrows] at he
      exact hk.enqueued (current_opened htx) he
  begun := by
    intro u row hu
    rw [h.nextTx]
    exact hk.begun ((mem_snoc_iff.mp hu).resolve_right id)
  held hu hclaimed := hheld hu ((mem_snoc_iff.mp hclaimed).resolve_right id)

/-- It keeps a row closed. -/
theorem Since.relocked (hs : Since row lease trail since s) (h : Relocked s s') :
    Since row lease (trail ++ [.outside]) (since ++ [.outside]) s' where
  committed := by
    rw [← h.sameTables.rows]
    exact hs.committed
  opened := by
    intro u tx' hu
    obtain ⟨tx, htx, hrows⟩ := h.opened hu
    rw [h.rowIn hrows]
    exact (hs.opened htx).imp_right (·.snoc _)
  claims := by
    intro u tx' hu hclaimed
    obtain ⟨tx, htx, -⟩ := h.opened hu
    exact (hs.claims htx ((mem_snoc_iff.mp hclaimed).resolve_right id)).snoc _

end relocked

/-! ## What each step does -/

section steps
variable {s s' : Store} {t u : TxId} {tx : Transaction} {scan scan' : Scan} {row : RowId}
  {e : OutboxRow} {c c' : InUse} {a : Act} {reports more : List Report} {trail : List Entry}

/-- A step of a scan that keeps this row, or none. -/
structure Scan.Leads (t : TxId) (s s' : Store) (scan scan' : Scan) (kept : Option OutboxRow) :
    Prop where
  before : scan'.before = scan.before
  found : scan'.found = scan.found ++ kept.toList
  took : ∀ e ∈ kept, Took s (scan.purpose.entry t e) s'
  relocked : kept = none → Relocked s s'

theorem Scan.leads_none (hbefore : scan'.before = scan.before) (hfound : scan'.found = scan.found)
    (h : Relocked s s') : Scan.Leads t s s' scan scan' none where
  before := hbefore
  found := by rw [hfound, Option.toList_none, List.append_nil]
  took e he := (Option.not_mem_none e he).elim
  relocked _ := h

/-- **To keep a row** is to claim it, or to end its lease, in one step. -/
theorem Purpose.took (p : Purpose) (h : s.Orderly) (htx : s.opened.find? t = some tx)
    (hlock : LockKey.row e.id ∈ tx.held) (hrow : s.rowIn tx e.id = some e)
    (hwants : p.wants e = true) : Took s (p.entry t e) (s.update t (p.stage tx e)) := by
  have hfree := h.lockable_of_held htx hlock
  have hsame : (rowKeys [e]).foldl Transaction.hold tx = tx := Transaction.hold_of_mem hlock
  have hp := progress_update htx (p.held_stage tx e)
  cases p with
  | claim limit now =>
    have hclaim : Progress t s tx (s.update t tx) ((rowKeys [e]).foldl Transaction.hold tx) := by
      rwa [hsame]
    refine .claimed (fun he => ?_) hclaim
    obtain rfl := List.mem_singleton.mp he
    exact ⟨hrow, ⟨now, hwants⟩, hfree⟩
  | release limit =>
    have hrelease : Progress t s tx (s.update t (tx.putRow e.id e.endLease))
        (((rowKeys [e]).foldl Transaction.hold tx).putRows
          ([e].map fun e => (e.id, e.endLease))) := by
      rwa [hsame]
    refine .released (fun he => ?_) hrelease
    obtain rfl := List.mem_singleton.mp he
    exact ⟨hrow, hwants, hfree⟩

/-- **One step of a scan.** -/
theorem Scan.Accounts.leads (ha : scan.Accounts tx) (h : s.Orderly)
    (htx : s.opened.find? t = some tx) (hstep : Scan.step t (s, scan) = some (s', scan')) :
    Scan.Leads t s s' scan scan' (scan.keeps s tx) := by
  rcases Scan.step_cases htx hstep with ⟨e, rest, hchecking, hrow⟩ | ⟨c, hchecking, hrow⟩
  · have hnone : scan.keeps s tx = none := by
      unfold Scan.keeps
      rw [hchecking]
      rfl
    rw [hnone]
    unfold Scan.tryLock at hrow
    dsimp only at hrow
    split at hrow
    · next hwanted =>
      cases hrow
      have hfree : s.lockable t (.row e.id) = true := hwanted.2.elim (h.lockable_of_held htx) id
      refine Scan.leads_none rfl rfl ?_
      exact (progress_take htx hfree).relocked (tx.hold_rows _)
    · cases hrow
      exact Scan.leads_none rfl rfl (relocked_refl s)
  · have hlock : LockKey.row c.id ∈ tx.held :=
      (ha.held_checking hchecking _).mpr (Or.inr (Or.inr rfl))
    have hkeeps : scan.keeps s tx = (s.rowIn tx c.id).filter scan.purpose.wants := by
      unfold Scan.keeps
      rw [hchecking]
      rfl
    rw [hkeeps]
    unfold Scan.recheck at hrow
    cases hfound : (s.rowIn tx c.id).filter scan.purpose.wants with
    | some e =>
      rw [hfound] at hrow
      cases hrow
      obtain ⟨hseen, hwants⟩ := Option.filter_eq_some_iff.mp hfound
      obtain hid := h.rowIn_id htx hseen
      refine ⟨rfl, rfl, fun e' he' => ?_, fun hnone => by cases hnone⟩
      obtain rfl := Option.some.inj he'
      exact scan.purpose.took h htx (hid ▸ hlock) (hid ▸ hseen) hwants
    | none =>
      rw [hfound] at hrow
      cases hrow
      refine Scan.leads_none rfl rfl ?_
      split
      · exact relocked_refl s
      · exact h.relocked_giveBack htx hlock

/-- **A step in a store in use** does what its entry says, or changes nothing but locks. -/
inductive Passes (s : Store) : Entry → Store → Prop where
  | took {entry : Entry} {s' : Store} (ht : Took s entry s') : Passes s entry s'
  | relocked {s' : Store} (h : Relocked s s') : Passes s .outside s'

/-- A scan that goes on passes over a row or keeps it. -/
theorem Scan.Leads.passes (hleads : Scan.Leads t s s' scan scan' (scan.keeps s tx))
    (htx : s.opened.find? t = some tx) : Passes s (scan.entry t s) s' := by
  unfold Scan.entry
  rw [htx, Option.bind_some]
  cases hkeeps : scan.keeps s tx with
  | some e => exact .took (hleads.took e hkeeps)
  | none => exact .relocked (hleads.relocked hkeeps)

theorem Act.entry_call {m : Move} {entry : Entry} (hrun : m.run c.store = some (entry, s')) :
    (Act.call m).entry c = entry := by
  show (m.run c.store).elim .outside (·.1) = entry
  rw [hrun, Option.elim_some]

theorem Act.entry_goOn (hscan : c.scans.find? t = some scan) :
    (Act.goOn t).entry c = scan.entry t c.store := by
  show (c.scans.find? t).elim .outside (Scan.entry t c.store) = _
  rw [hscan, Option.elim_some]

theorem Act.passes (hc : c.Orderly reports) (hdid : a.Did c more c') :
    Passes c.store (a.entry c) c'.store := by
  cases hdid with
  | @call m entry s' hidle hrun =>
    rw [Act.entry_call hrun]
    exact .took (Move.run_took hc.store hrun).1
  | @goOn t scan scan' s' hscan hstep =>
    obtain ⟨tx, htx, haccounts⟩ := hc.scans hscan
    rw [Act.entry_goOn hscan]
    exact (haccounts.leads hc.store htx hstep).passes htx
  | read | beginScan | endScan => exact .relocked (relocked_refl _)

/-! ## Who claims -/

theorem Purpose.claims_of_entry {p : Purpose} (h : (p.entry t e).Claims u row) :
    t = u ∧ e.id = row := by
  cases p with
  | claim =>
    obtain ⟨rfl, e', he', rfl⟩ := h
    exact ⟨rfl, congrArg (·.id) (List.mem_singleton.mp he').symm⟩
  | release => cases h

/-- A scan claims the row that it keeps, for its own transaction. -/
theorem Scan.claims_of_entry (htx : s.opened.find? t = some tx)
    (h : (scan.entry t s).Claims u row) : t = u ∧ ∃ e ∈ scan.keeps s tx, e.id = row := by
  unfold Scan.entry at h
  rw [htx, Option.bind_some] at h
  split at h
  · next e hkeeps =>
    obtain ⟨htu, hid⟩ := Purpose.claims_of_entry h
    exact ⟨htu, e, hkeeps, hid⟩
  · cases h

/-- A call claims for its caller. -/
theorem Move.caller_of_claims {m : Move} {entry : Entry} (hrun : m.run s = some (entry, s'))
    (h : entry.Claims u row) : m.caller = some u := by
  cases m with
  | claim t limit now =>
    obtain ⟨⟨r, s₁⟩, hcall, heq⟩ := Option.map_eq_some_iff.mp hrun
    obtain ⟨tx, rows, rfl, -, -⟩ := claimDue_eq_some hcall
    cases heq
    exact congrArg some h.1
  | release t limit =>
    obtain ⟨_, -, heq⟩ := Option.map_eq_some_iff.mp hrun
    cases heq
    cases h
  | event e =>
    cases e with
    | start =>
      obtain ⟨⟨r, s₁⟩, hcall, heq⟩ := Option.map_eq_some_iff.mp hrun
      rcases start_eq_some hcall with ⟨rfl, -, -⟩ | ⟨rfl, -, -⟩
      · cases heq
        cases h
      · cases heq
        cases h
    | ask | abandon =>
      obtain ⟨_, -, heq⟩ := Option.map_eq_some_iff.mp hrun
      cases heq
      cases h
    | commit t =>
      obtain ⟨⟨r, s₁⟩, hcall, heq⟩ := Option.map_eq_some_iff.mp hrun
      obtain ⟨tx, -, ⟨rfl, -, -⟩ | ⟨rfl, -, -⟩⟩ := commit_eq_some hcall
      · cases heq
        cases h
      · cases heq
        cases h
    | setAvailable =>
      cases hrun
      cases h

/-! ## What every history keeps -/

/-- **Closed since each commit** that has left a row closed, or opened again. -/
def ClosedSince (trail : List Entry) (s : Store) : Prop :=
  ∀ ⦃past later t written row lease⦄, trail = past ++ .committed t written :: later →
    (∃ e ∈ written, e.id = row ∧ OutboxRow.Closed lease e) →
      Reopened row lease later ∨ Since row lease trail later s

/-- **What every history keeps.**  The store in use is in order, its trail keeps
    what trails keep, and a transaction that is scanning has accounted for every row that
    it has claimed. -/
structure InUse.Sound (trail : List Entry) (c : InUse) : Prop where
  orderly : ∃ reports, c.Orderly reports
  kept : Kept trail c.store
  accounted : ∀ {t scan row}, c.scans.find? t = some scan →
    (∃ x ∈ trail, x.Claims t row) →
    LockKey.row row ∈ scan.before ∨ LockKey.row row ∈ rowKeys scan.found
  closed : Follows Permitted [] trail → ClosedSince trail c.store

theorem InUse.sound_empty : InUse.Sound [] {} where
  orderly := ⟨[], InUse.orderly_empty⟩
  kept := kept_nil
  accounted := by
    intro t scan row hscan
    cases hscan
  closed := by
    intro _ past later t written row lease heq
    simp at heq

/-- A row stays closed in a step, unless a transaction commits that has opened it. -/
theorem ClosedSince.snoc {entry : Entry} (h : ClosedSince trail s) (hk : Kept trail s)
    (hpermitted : Permitted trail entry) (hpasses : Passes s entry s') :
    ClosedSince (trail ++ [entry]) s' := by
  intro past later t written row lease heq hclosed
  -- Either this is the step that closes the row, or it was closed before.
  rcases List.eq_nil_or_concat later with rfl | ⟨rest, x, rfl⟩
  · obtain ⟨rfl, hentry⟩ := List.append_inj' heq rfl
    obtain rfl := List.singleton_inj.mp hentry
    cases hpasses with
    | took ht =>
      cases ht with
      | committed htx => exact Or.inr (hk.since_commit htx hclosed _)
  · rw [List.concat_eq_append, ← List.cons_append, ← List.append_assoc] at heq
    obtain ⟨hpast, hentry⟩ := List.append_inj' heq rfl
    obtain rfl := List.singleton_inj.mp hentry
    rw [List.concat_eq_append]
    rcases h hpast hclosed with hreopened | hsince
    · exact Or.inl (hreopened.snoc _)
    · cases hpasses with
      | took ht => exact hsince.step hk hpermitted ht
      | relocked hlocks => exact Or.inr (hsince.relocked hlocks)

/-- **An account** goes on: what was claimed before stays on it, and what the scan
    claims now comes to it. -/
theorem Scan.Leads.accounted (hleads : Scan.Leads t s s' scan scan' (scan.keeps s tx))
    (htx : s.opened.find? t = some tx)
    (h : (∃ x ∈ trail, x.Claims t row) →
      LockKey.row row ∈ scan.before ∨ LockKey.row row ∈ rowKeys scan.found)
    (hclaimed : ∃ x ∈ trail ++ [scan.entry t s], x.Claims t row) :
    LockKey.row row ∈ scan'.before ∨ LockKey.row row ∈ rowKeys scan'.found := by
  have hkeys : rowKeys scan'.found = rowKeys scan.found ++ rowKeys (scan.keeps s tx).toList := by
    rw [hleads.found]
    exact List.map_append
  rw [hleads.before, hkeys, List.mem_append]
  rcases mem_snoc_iff.mp hclaimed with hold | hnew
  · exact (h hold).imp_right Or.inl
  · obtain ⟨-, e, he, rfl⟩ := Scan.claims_of_entry htx hnew
    exact Or.inr (Or.inr (List.mem_map_of_mem (Option.mem_toList.mpr he)))

/-- The accounts after a step. -/
theorem InUse.Sound.accounted_act (h : c.Sound trail) (hc : c.Orderly reports)
    (hdid : a.Did c more c') {scan : Scan} (hscan : c'.scans.find? t = some scan)
    (hclaimed : ∃ x ∈ trail ++ [a.entry c], x.Claims t row) :
    LockKey.row row ∈ scan.before ∨ LockKey.row row ∈ rowKeys scan.found := by
  cases hdid with
  | @call m entry s' hidle hrun =>
    refine h.accounted hscan ((mem_snoc_iff.mp hclaimed).resolve_right fun hnew => ?_)
    -- The caller is not scanning.
    rw [Act.entry_call hrun] at hnew
    have hnone := hidle t (Move.caller_of_claims hrun hnew)
    rw [show c.scans.find? t = some scan from hscan] at hnone
    cases hnone
  | read => exact h.accounted hscan ((mem_snoc_iff.mp hclaimed).resolve_right id)
  | @beginScan u p tx _ htx =>
    have hold := (mem_snoc_iff.mp hclaimed).resolve_right id
    rw [Table.find?_put] at hscan
    split at hscan
    · next hut =>
      cases hscan
      exact Or.inl (h.kept.held (hut ▸ htx) hold)
    · exact h.accounted hscan hold
  | @goOn u scan₁ scan' s' hscan₁ hstep =>
    obtain ⟨tx, htx, haccounts⟩ := hc.scans hscan₁
    rw [Act.entry_goOn hscan₁] at hclaimed
    rw [Table.find?_put] at hscan
    split at hscan
    · next hut =>
      subst hut
      cases hscan
      exact (haccounts.leads hc.store htx hstep).accounted htx (h.accounted hscan₁) hclaimed
    · next hut =>
      refine h.accounted hscan ((mem_snoc_iff.mp hclaimed).resolve_right fun hnew => ?_)
      exact hut (Scan.claims_of_entry htx hnew).1
  | endScan =>
    rw [Table.find?_erase] at hscan
    split at hscan
    · cases hscan
    · exact h.accounted hscan ((mem_snoc_iff.mp hclaimed).resolve_right id)

/-- The trail after a step. -/
theorem InUse.Sound.kept_act (h : c.Sound trail) (hc : c.Orderly reports)
    (hdid : a.Did c more c') (hc' : c'.store.Orderly) : Kept (trail ++ [a.entry c]) c'.store := by
  cases hdid with
  | @call m entry s' hidle hrun =>
    rw [Act.entry_call hrun]
    exact h.kept.step hc' (Move.run_took hc.store hrun).1
  | read | beginScan | endScan => exact h.kept.relocked (relocked_refl _) hc' h.kept.held
  | @goOn t scan scan' s' hscan hstep =>
    obtain ⟨tx, htx, haccounts⟩ := hc.scans hscan
    have hgoes := haccounts.step hc.store htx hstep
    have hleads := haccounts.leads hc.store htx hstep
    have hpasses := hleads.passes htx
    rw [Act.entry_goOn hscan]
    generalize hentry : scan.entry t c.store = entry at hpasses
    cases hpasses with
    | took ht => exact h.kept.step hc' ht
    | relocked hlocks =>
      refine h.kept.relocked hlocks hc' fun {u other row} hu hclaimed => ?_
      by_cases hut : u = t
      · -- A lock that the scan gives back is not that of a row on its account.
        subst hut
        obtain ⟨tx', htx', haccounts'⟩ := hgoes.opened
        rw [htx', Option.some.injEq] at hu
        subst hu
        have hrow := hleads.accounted htx (h.accounted hscan) (mem_snoc_iff.mpr (Or.inl hclaimed))
        exact (haccounts'.held _).mpr (hrow.imp_right Or.inl)
      · rw [hgoes.others hut] at hu
        exact h.kept.held hu hclaimed

/-- **One step** keeps it. -/
theorem InUse.Sound.act (h : c.Sound trail) (hdid : a.Did c more c') :
    c'.Sound (trail ++ [a.entry c]) := by
  obtain ⟨reports, hc⟩ := h.orderly
  have hc' := hc.act hdid
  refine {
    orderly := ⟨_, hc'⟩
    kept := h.kept_act hc hdid hc'.store
    accounted := h.accounted_act hc hdid
    closed := fun hpermitted => ?_ }
  exact (h.closed hpermitted.before).snoc h.kept hpermitted.at (Act.passes hc hdid)

/-- **Every history** keeps it. -/
theorem InUse.sound_of_trail {history : List Act} (h : InUse.trail history = some (trail, c)) :
    c.Sound trail := by
  induction history using List.reverseRecOn generalizing trail c with
  | nil =>
    cases h
    exact InUse.sound_empty
  | append_singleton history a ih =>
    unfold InUse.trail at h
    rw [List.foldlM_append] at h
    obtain ⟨⟨trail₀, c₀⟩, hbefore, hlast⟩ := Option.bind_eq_some_iff.mp h
    rw [List.foldlM_cons] at hlast
    obtain ⟨c₁, hact, hnil⟩ := Option.bind_eq_some_iff.mp hlast
    cases hnil
    obtain ⟨⟨more, c'⟩, hrun, heq⟩ := Option.map_eq_some_iff.mp hact
    cases heq
    exact (ih hbefore).act (Act.run_did hrun)

/-! ## Exclusion -/

/-- **Claims among scans are exclusive.**  Let any history of a store in use have
    led to `c`, and let it go on by any step.  While a transaction is open that has
    claimed a row, the step is not one in which another one claims it or ends a lease of
    it.  And since a commit that has left the row in processing, leased at `moment`,
    nobody claims it, unless meanwhile the row was put off, or its lease ended with a
    limit later than `moment`, by a transaction that has committed since or by the
    claimant itself. -/
theorem scans_claim_exclusively {history : List Act} (h : InUse.trail history = some (trail, c))
    (hpermitted : Follows Permitted [] trail) (hrun : a.run c = some (more, c')) :
    (c.store.opened.find? t = some tx → (∃ x ∈ trail, x.Claims t row) → u ≠ t →
      ¬ (a.entry c).Claims u row ∧ ¬ (a.entry c).Releases u row) ∧
    (∀ {past later written moment}, trail = past ++ .committed t written :: later →
      (∃ e ∈ written, e.id = row ∧ e.status = .processing ∧ e.lockedAt = some moment) →
      (a.entry c).Claims u row →
      Reopened row (some moment) later ∨ ReopenedBy u row (some moment) later) := by
  have hsound := InUse.sound_of_trail h
  obtain ⟨reports, hc⟩ := hsound.orderly
  have hpasses := Act.passes hc (Act.run_did hrun)
  generalize a.entry c = entry at hpasses
  constructor
  · intro htx hclaimed hne
    cases hpasses with
    | took ht => exact ht.leaves_locked hc.store htx (hsound.kept.held htx hclaimed) hne
    | relocked => exact ⟨id, id⟩
  · rintro past later written moment htrail ⟨e, he, hid, hprocessing, hlocked⟩ hagain
    have hclosed : e.Closed (some moment) := Or.inr ⟨hprocessing, moment, rfl, hlocked⟩
    cases hpasses with
    | took ht =>
      exact (hsound.closed hpermitted htrail ⟨e, he, hid, hclosed⟩).imp_right
        (·.not_claimed ht hagain)
    | relocked => exact hagain.elim

/-- Transactions 2 and 3 have both listed a row that is due.  Transaction 2 claims it, leases it
    and commits.  Then transaction 3 gets the lock of the row, which it listed as due, finds it
    leased when it looks it up again, and claims nothing. -/
def listedTwice : List Act := [
  .call (.event .start),
  .call (.event (.ask 1 (.writeRow waitingRow))),
  .call (.event (.commit 1)),
  .call (.event .start),
  .call (.event .start),
  .beginScan 2 (.claim 5 .newYear2024),
  .beginScan 3 (.claim 5 .newYear2024),
  .goOn 2,
  .goOn 2,
  .endScan 2,
  .call (.event (.ask 2 (.leaseRow waitingRow.id .newYear2024 "slow"))),
  .call (.event (.commit 2)),
  .goOn 3,
  .goOn 3,
  .endScan 3]

example : (InUse.trail listedTwice).map Prod.fst = some [
    .started 1,
    .asked 1 (.writeRow waitingRow) (.ok .done),
    .committed 1 [waitingRow],
    .started 2,
    .started 3,
    .outside,
    .outside,
    .outside,
    .claimed 2 [waitingRow],
    .outside,
    .asked 2 (.leaseRow waitingRow.id .newYear2024 "slow") (.ok .done),
    .committed 2 [leasedRow],
    .outside,
    .outside,
    .outside] := rfl

end steps

end OrderFlow.Store
