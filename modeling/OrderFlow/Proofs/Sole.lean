import OrderFlow.Proofs.Around
import OrderFlow.Proofs.Stages

/-! # The only transaction

    The only open transaction has every lock for the asking, so none of its
    calls waits.  Where others do not interfere, the store stays as available
    as it is, unless the processor is called: it may take the store down or
    bring it up.

    So it is known how a transaction of its own ends where no other is open
    (`World.Closes`), and no other is open afterwards. -/

namespace OrderFlow

open Attempt

variable {t : TxId} {b : Bool}

/-! ## In the store -/

namespace Store

/-- **The only one**: transaction `t` is open and no other is, and the store is
    available or not. -/
structure Sole (t : TxId) (b : Bool) (s : Store) : Prop where
  orderly : s.Orderly
  opened : ∃ tx, s.opened.find? t = some tx
  only : ∀ {u tx}, s.opened.find? u = some tx → u = t
  available : s.available = b

/-- The transaction sees each of the rows. -/
def Shows (t : TxId) (rows : List OutboxRow) (s : Store) : Prop :=
  ∃ tx, s.opened.find? t = some tx ∧ ∀ e ∈ rows, (s.rowIn tx e.id).isSome

section calls
variable {s s' : Store} {tx tx' : Transaction} {α : Type}

/-- Nobody else holds a lock. -/
theorem Sole.lockable (h : s.Sole t b) (key : LockKey) : s.lockable t key = true := by
  rw [lockable_iff]
  intro u hu
  obtain ⟨tx, htx, -⟩ := h.orderly.owned.mp hu
  exact h.only htx

/-- What the transaction does leaves it the only one. -/
theorem Sole.keep (h : s.Sole t b) (hp : Progress t s tx s' tx') (horderly : s'.Orderly)
    (havailable : AsAvailable s s') : s'.Sole t b where
  orderly := horderly
  opened := ⟨tx', hp.after⟩
  only := by
    intro u other hu
    by_cases hut : u = t
    · exact hut
    · rw [hp.others hut] at hu
      exact h.only hu
  available := havailable.trans h.available

/-- **A call under the lock of a row does not wait.** -/
theorem Sole.underLock {m : StoreCall α} {key : LockKey}
    {act : Store → Transaction → Except StoreError α × Transaction} (h : s.Sole t b)
    (hm : m = underLock t key act) (hheld : ∀ s tx, (act s tx).2.held = tx.held)
    (horderly : ∀ {s s' r}, s.Orderly → m s = some (r, s') → s'.Orderly)
    (havailable : Moves AsAvailable m) : ∃ r s', m s = some (r, s') ∧ s'.Sole t b := by
  obtain ⟨tx, htx⟩ := h.opened
  have hcall : Store.underLock t key act s =
      some ((act s (tx.hold key)).1, (s.take t key).update t (act s (tx.hold key)).2) := by
    unfold Store.underLock
    simp only [htx, h.lockable key, if_true]
  obtain ⟨tx₀, -, hp⟩ := underLock_eq_some hheld hcall
  rw [← hm] at hcall
  exact ⟨_, _, hcall, h.keep hp (horderly h.orderly hcall) (havailable _ _ _ hcall)⟩

/-- Such a call that has an answer. -/
theorem total_underLock {m : StoreCall α} {key : LockKey} {E : StoreError → Store → Prop}
    {act : Store → Transaction → Except StoreError α × Transaction} (hanswers : m.Answers)
    (hm : m = underLock t key act) (hheld : ∀ s tx, (act s tx).2.held = tx.held)
    (horderly : ∀ {s s' r}, s.Orderly → m s = some (r, s') → s'.Orderly)
    (havailable : Moves AsAvailable m) : Total (Sole t b) m (fun _ => Sole t b) E := by
  intro s hs
  obtain ⟨r, s', hcall, hs'⟩ := hs.underLock hm hheld horderly havailable
  obtain ⟨a, rfl⟩ := hanswers s r s' hcall
  exact Or.inl ⟨a, s', hcall, hs'⟩

theorem total_holdOrder {E : StoreError → Store → Prop} (id : OrderId) :
    Total (Sole t b) (holdOrder t id) (fun _ => Sole t b) E :=
  total_underLock (answers_holdOrder t id) (holdOrder_eq t id) (fun _ _ => rfl)
    (fun h hs => h.holdOrder hs) (moves_holdOrder id)

theorem total_writeOrder {E : StoreError → Store → Prop} (o : Order) :
    Total (Sole t b) (writeOrder t o) (fun _ => Sole t b) E :=
  total_underLock (answers_writeOrder t o) (writeOrder_eq t o) (fun _ _ => rfl)
    (fun h hs => h.writeOrder hs) (moves_writeOrder o)

theorem total_writeLetter {E : StoreError → Store → Prop} (d : DeadLetter) :
    Total (Sole t b) (writeLetter t d) (fun _ => Sole t b) E :=
  total_underLock (answers_writeLetter t d) (writeLetter_eq t d) (fun _ _ => rfl)
    (fun h hs => h.writeLetter hs) (moves_writeLetter d)

/-- A row is changed, or there is none. -/
theorem Sole.changeRow (h : s.Sole t b) (id : RowId) {f : OutboxRow → OutboxRow}
    (hf : KeepsId f) : ∃ r s', changeRow t id f s = some (r, s') ∧ s'.Sole t b := by
  refine h.underLock (changeRow_eq t id f) (fun s tx => ?_) (fun h hs => h.changeRow hf hs)
    (moves_changeRow id f)
  cases s.rowIn tx id <;> rfl

theorem total_changeRow (id : RowId) {f : OutboxRow → OutboxRow} (hf : KeepsId f) :
    Total (Sole t b) (changeRow t id f) (fun _ => Sole t b)
      (fun cause s => cause = .rowNotFound id ∧ s.Sole t b) := by
  intro s hs
  obtain ⟨r, s', hcall, hs'⟩ := hs.changeRow id hf
  obtain ⟨tx, ⟨-, rfl, -⟩ | ⟨e, -, rfl, -⟩⟩ := changeRow_eq_some hcall
  · exact Or.inr ⟨_, s', hcall, rfl, hs'⟩
  · exact Or.inl ⟨_, s', hcall, hs'⟩

/-- Rows that the transaction sees are leased. -/
theorem total_leaseAll (c : Claimant) (now : Instant) (rows : List OutboxRow) :
    Total (fun s => s.Sole t b ∧ s.Shows t rows) (c.leaseAll t now rows) (fun _ => Sole t b)
      (fun _ _ => False) := by
  induction rows with
  | nil => exact Total.pure fun s hs => hs.1
  | cons e rest ih =>
    refine Total.bind (Q := fun _ s => s.Sole t b ∧ s.Shows t rest) ?_ fun _ => ih
    rintro s ⟨hs, tx, htx, hshows⟩
    obtain ⟨r, s', hcall, hs'⟩ := hs.changeRow e.id (f := fun e => e.lease now c.name)
      fun _ => rfl
    obtain ⟨tx₀, ⟨hnone, -, hp⟩ | ⟨row, hrow, rfl, hp⟩⟩ := changeRow_eq_some hcall
    all_goals obtain rfl := hp.tx_eq htx
    · have hsome := hshows e List.mem_cons_self
      rw [hnone] at hsome
      cases hsome
    · refine Or.inl ⟨_, s', hcall, hs', _, hp.after, fun e' he' => ?_⟩
      -- What the transaction sees may be another row now, but it sees one.
      rw [← hp.sameTables.rowIn, rowIn_putRow, rowIn_hold]
      split
      · rfl
      · exact hshows e' (List.mem_cons_of_mem _ he')

/-- Due rows are leased. -/
theorem total_leaseDue (c : Claimant) (now : Instant) :
    Total (Sole t b) (do
        let rows ← claimDue t c.batchSize now
        c.leaseAll t now rows
        pure rows : StoreCall (List OutboxRow))
      (fun _ => Sole t b) (fun _ _ => False) := by
  refine Total.bind (Q := fun rows s => s.Sole t b ∧ s.Shows t rows) ?_ fun rows =>
    (total_leaseAll c now rows).bind_pure (R := fun _ => Sole t b) fun _ _ hs => hs
  intro s hs
  obtain ⟨tx, htx⟩ := hs.opened
  have hcall : ∃ r s', claimDue t c.batchSize now s = some (r, s') := by
    unfold claimDue
    rw [htx]
    exact ⟨_, _, rfl⟩
  obtain ⟨r, s', hcall⟩ := hcall
  obtain ⟨tx₀, rows, rfl, hrows, hp⟩ := claimDue_eq_some hcall
  obtain rfl := hp.tx_eq htx
  have hs' := hs.keep hp (hs.orderly.claimDue hcall) (moves_claimDue _ _ _ _ _ hcall)
  refine Or.inl ⟨rows, s', hcall, hs', _, hp.after, fun e he => ?_⟩
  have hseen := (hs.orderly.mem_rowsIn_iff htx).mp (hrows e he).1
  rw [← hp.sameTables.rowIn, rowIn_congr (congrArg (·.find? e.id) (foldl_hold_rows _ _)), hseen]
  rfl

/-- Stale leases end. -/
theorem total_endStaleLeases (limit : Instant) :
    Total (Sole t b) (endStaleLeases t limit) (fun _ => Sole t b) (fun _ _ => False) := by
  intro s hs
  obtain ⟨tx, htx⟩ := hs.opened
  have hcall : ∃ r s', endStaleLeases t limit s = some (r, s') := by
    have hlocked (keys : List LockKey) :
        (s.takeAll t keys).opened.find? t = some (keys.foldl Transaction.hold tx) :=
      (progress_takeAll htx fun key _ => hs.lockable key).after
    unfold endStaleLeases
    simp only [htx, hlocked]
    exact ⟨_, _, rfl⟩
  obtain ⟨r, s', hcall⟩ := hcall
  obtain ⟨tx₀, rows, rfl, -, hp⟩ := endStaleLeases_eq_some hcall
  exact Or.inl ⟨_, s', hcall,
    hs.keep hp (hs.orderly.endStaleLeases hcall) (moves_endStaleLeases _ _ _ _ hcall)⟩

end calls

end Store

/-! ## In the world -/

namespace World

/-- **The only one**: transaction `t` is open and no other is, and others do not
    interfere. -/
structure Sole (t : TxId) (b : Bool) (w : World) : Prop where
  store : w.store.Sole t b
  disturbances : w.disturbances = []

/-- **Idle**: no transaction is open, and others do not interfere. -/
structure Idle (b : Bool) (w : World) : Prop where
  orderly : w.store.Orderly
  opened : ∀ u, w.store.opened.find? u = none
  available : w.store.available = b
  disturbances : w.disturbances = []

section calls
variable {now : Instant} {α : Type}

theorem total_inStore {m : StoreCall α} {F : StoreError → Prop} {E : OperationError → World → Prop}
    (hm : Total (Store.Sole t b) m (fun _ => Store.Sole t b) (fun e s => F e ∧ s.Sole t b))
    (hE : ∀ e w, F e → w.Sole t b → E (.store e) w) :
    Total (Sole t b) (Call.inStore m) (fun _ => Sole t b) E := by
  intro w hw
  rcases hm w.store hw.store with ⟨a, s, hs, hsole⟩ | ⟨e, s, hs, hF, hsole⟩
  · exact Or.inl ⟨a, _, Call.inStore_of_eq_some hs, hsole, hw.disturbances⟩
  · exact Or.inr ⟨.store e, _, Call.inStore_of_eq_some hs, hE _ _ hF ⟨hsole, hw.disturbances⟩⟩

/-- A call on the store that does not fail. -/
theorem total_inStore_answered {m : StoreCall α} {E : OperationError → World → Prop}
    (hm : Total (Store.Sole t b) m (fun _ => Store.Sole t b) (fun _ _ => False)) :
    Total (Sole t b) (Call.inStore m) (fun _ => Sole t b) E :=
  total_inStore (F := fun _ => False) (hm.weaken (fun _ _ h => h) fun _ _ h => h.elim)
    fun _ _ h => h.elim

/-- The processor may take the store down or bring it up. -/
theorem total_callProcessor {E : OperationError → World → Prop} (id : OrderId) :
    Total (Sole t b) (Call.callProcessor id) (fun _ w => ∃ b', w.Sole t b') E := by
  intro w hw
  refine Or.inl ⟨_, w.processorCalled id, rfl, _, ⟨hw.store.orderly.setAvailable _,
    hw.store.opened, hw.store.only, rfl⟩, hw.disturbances⟩

/-- **An attempt does not wait.** -/
theorem admits_sole (id : OrderId) :
    Admits t id (Sole t b) (fun w => ∃ b', w.Sole t b') := by
  have hafter {m : StoreCall Unit}
      (hm : ∀ b, Total (Store.Sole t b) m (fun _ => Store.Sole t b) (fun _ _ => False)) :
      Total (fun w => ∃ b', w.Sole t b') (Call.inStore m) (fun _ w => ∃ b', w.Sole t b')
        (fun _ _ => False) := by
    rintro w ⟨b', hw⟩
    exact (total_inStore_answered (hm b')).weaken (fun _ _ hw => ⟨b', hw⟩) (fun _ _ h => h) w hw
  refine ⟨fun w hw => ?_, fun o _ => total_inStore_answered (Store.total_writeOrder o),
    total_callProcessor id, fun o _ => hafter fun _ => Store.total_writeOrder o,
    fun d _ => hafter fun _ => Store.total_writeLetter d⟩
  rcases Store.total_holdOrder (E := fun _ _ => False) id w.store hw.store with
    ⟨found, s, hs, hsole⟩ | ⟨_, _, _, hfalse⟩
  · refine Or.inl ⟨found, _, Call.inStore_of_eq_some hs, ⟨hsole, hw.disturbances⟩, ?_⟩
    obtain ⟨tx, hr, hp⟩ := Store.holdOrder_eq_some hs
    intro o ho
    exact hw.store.orderly.orderIn_id hp.before ((Except.ok.inj hr).symm.trans ho)
  · exact hfalse.elim

/-- **An attempt goes through**, and if it fails the store is as available as it was. -/
theorem total_processIn (id : OrderId) (m : Nat) :
    Total (Sole t b) (processIn t id now m) (fun _ w => ∃ b', w.Sole t b')
      (fun cause w => ∃ b', (cause.isLasting = true → b' = b) ∧ w.Sole t b') := by
  refine (admits_sole id).processIn.weaken ?_ ?_
  · exact fun _ w hw => hw.elim (fun hw => ⟨b, hw⟩) fun hw => hw
  · rintro _ w ⟨rfl, hw⟩
    exact ⟨b, fun _ => rfl, hw⟩

/-- **The body of a row's own transaction.**  After a failure that lasts the store is
    as available as it was. -/
theorem total_settleIn (p : OutboxProcessor) (e : OutboxRow) :
    Total (Sole t b) (p.settleIn e now t) (fun _ w => ∃ b', w.Sole t b')
      (fun cause w => ∃ b', (cause.isLasting = true → b' = b) ∧ w.Sole t b') := by
  refine (total_processIn e.order p.maxRetries).bind fun outcome => ?_
  rintro w ⟨b', hw⟩
  have hkeeps := p.settled_keepsId e now outcome
  rw [OutboxProcessor.settleRow_eq]
  have hchanged : Total (Sole t b') (do
      Call.inStore (Store.changeRow t e.id (p.settled e now outcome))
      pure outcome : Call Outcome) (fun _ w => ∃ b', w.Sole t b')
      (fun cause w => ∃ b', (cause.isLasting = true → b' = b) ∧ w.Sole t b') := by
    refine (total_inStore (Store.total_changeRow e.id hkeeps) ?_).bind_pure fun _ _ hw => ⟨b', hw⟩
    rintro _ w₁ rfl hw₁
    exact ⟨b', nofun, hw₁⟩
  exact hchanged w hw

end calls

/-! ## A transaction of its own -/

/-- **How a transaction of its own ends**, and whether the store is available then:
    `Q` says that of the answer of its body, and `F` of its failure. -/
inductive Closes {α : Type} (b : Bool) (Q : Bool → Prop) (F : OperationError → Bool → Prop) :
    Except OperationError α → Bool → Prop where
  /-- It has not begun. -/
  | notBegun (h : b = false) : Closes b Q F (.error (.store Store.offline)) false
  /-- It has committed. -/
  | committed {a : α} (h : Q true) : Closes b Q F (.ok a) true
  /-- Its commit was refused. -/
  | refused (h : Q false) : Closes b Q F (.error (.store Store.offline)) false
  /-- Its body has failed, and it was abandoned. -/
  | failed {e : OperationError} {b' : Bool} (h : F e b') : Closes b Q F (.error e) b'

section transact
variable {w : World} {α : Type} {Q : Bool → Prop} {F : OperationError → Bool → Prop}

theorem Idle.start (h : w.Idle true) :
    ∃ t w₁, Call.start w = some (.ok t, w₁) ∧ w₁.Sole t true := by
  refine ⟨_, _, Call.start_of_available h.disturbances h.available,
    ⟨h.orderly.start, ⟨{}, by simp [Store.opened_begun]⟩, ?_, h.available⟩, h.disturbances⟩
  intro u tx hu
  simp only [Store.opened_begun, h.opened] at hu
  split at hu
  · next heq => exact heq.symm
  · cases hu

/-- The only transaction ends. -/
theorem Sole.close (h : w.Sole t b) {s : Store} (horderly : s.Orderly)
    (hopened : s.opened = w.store.opened) (havailable : s.available = b) :
    Idle b { w with store := s.close t } where
  orderly := horderly.close t
  opened u := by
    rw [Store.opened_close, hopened]
    split
    · rfl
    · next hne =>
      exact Option.eq_none_iff_forall_ne_some.mpr fun tx hu => hne (h.store.only hu).symm
  available := havailable
  disturbances := h.disturbances

/-- **A transaction of its own does not wait.** -/
theorem Idle.transact {body : TxId → Call α} (hw : w.Idle b)
    (hbody : ∀ t, Total (Sole t b) (body t) (fun _ w => ∃ b', Q b' ∧ w.Sole t b')
      (fun e w => ∃ b', F e b' ∧ w.Sole t b')) :
    ∃ r w' b', Call.transact body w = some (r, w') ∧ w'.Idle b' ∧ Closes b Q F r b' := by
  cases b with
  | false =>
    have hs : Store.start w.store = some (.error Store.offline, w.store) := by
      simp [Store.start, hw.available]
    have hstart : Call.start w = some (.error (.store Store.offline), w) := by
      rw [Call.start_eq, Call.nextDisturbance_eq hw.disturbances]
      exact Call.inStore_of_eq_some hs
    exact ⟨_, w, false, Call.transact_of_start_error hstart, hw, .notBegun rfl⟩
  | true =>
    obtain ⟨t, w₁, hstart, hsole⟩ := hw.start
    rcases hbody t w₁ hsole with ⟨a, w₂, hrun, b', hQ, hend⟩ | ⟨e, w₂, hrun, b', hF, hend⟩
    all_goals obtain ⟨tx, htx⟩ := hend.store.opened
    · have havailable := hend.store.available
      cases b' with
      | true =>
        have hcommit := Call.commit_of_available hend.disturbances havailable htx
        exact ⟨_, _, true, Call.transact_of_ok hstart hrun hcommit,
          hend.close (hend.store.orderly.absorb (hend.store.orderly.each htx)) rfl havailable,
          .committed hQ⟩
      | false =>
        have hs : Store.commit t w₂.store = some (.error Store.offline, w₂.store.close t) := by
          simp [Store.commit, htx, havailable]
        have hcommit : Call.commit t w₂ = some (.error (.store Store.offline),
            { w₂ with store := w₂.store.close t }) := by
          rw [Call.commit_eq, Call.nextDisturbance_eq hend.disturbances]
          exact Call.inStore_of_eq_some hs
        exact ⟨_, _, false, Call.transact_of_commit_error hstart hrun hcommit,
          hend.close hend.store.orderly rfl havailable, .refused hQ⟩
    · have hs : Store.abandon t w₂.store = some (.ok (), w₂.store.close t) := by
        simp [Store.abandon, htx]
      exact ⟨_, _, b', Call.transact_of_body_error hstart hrun (Call.inStore_of_eq_some hs),
        hend.close hend.store.orderly rfl hend.store.available, .failed hF⟩

/-- **A transaction that only uses the store** leaves it as available as it was, and
    commits if it is available and its body answers. -/
theorem Idle.transact_inStore {m : TxId → StoreCall α} {F : StoreError → Prop} (hw : w.Idle b)
    (hm : ∀ t, Total (Store.Sole t b) (m t) (fun _ => Store.Sole t b)
      (fun e s => F e ∧ s.Sole t b)) :
    ∃ r w', Call.transact (fun t => Call.inStore (m t)) w = some (r, w') ∧ w'.Idle b ∧
      ((b = true ∧ ∃ a, r = .ok a) ∨ (b = false ∧ r = .error (.store Store.offline)) ∨
        ∃ e, F e ∧ r = .error (.store e)) := by
  have hbody (t : TxId) : Total (Sole t b) (Call.inStore (m t))
      (fun _ w => ∃ b', b' = b ∧ w.Sole t b')
      (fun e w => ∃ b', (b' = b ∧ ∃ cause, F cause ∧ e = .store cause) ∧ w.Sole t b') := by
    refine (total_inStore (hm t) fun e w hF hw => ?_).weaken (fun _ _ hw => ⟨b, rfl, hw⟩)
      fun _ _ h => h
    exact ⟨b, ⟨rfl, e, hF, rfl⟩, hw⟩
  obtain ⟨r, w', b', hcall, hidle, hcloses⟩ := hw.transact hbody
  refine ⟨r, w', hcall, ?_⟩
  cases hcloses with
  | notBegun h => exact ⟨h ▸ hidle, Or.inr (Or.inl ⟨h, rfl⟩)⟩
  | committed h => exact ⟨h ▸ hidle, Or.inl ⟨h.symm, _, rfl⟩⟩
  | refused h => exact ⟨h ▸ hidle, Or.inr (Or.inl ⟨h.symm, rfl⟩)⟩
  | failed h =>
    obtain ⟨rfl, cause, hF, rfl⟩ := h
    exact ⟨hidle, Or.inr (Or.inr ⟨cause, hF, rfl⟩)⟩

/-- If its body always answers, only an unavailable store makes it fail. -/
theorem Idle.transact_answered {m : TxId → StoreCall α} (hw : w.Idle b)
    (hm : ∀ t, Total (Store.Sole t b) (m t) (fun _ => Store.Sole t b) (fun _ _ => False)) :
    ∃ r w', Call.transact (fun t => Call.inStore (m t)) w = some (r, w') ∧ w'.Idle b ∧
      ((b = true ∧ ∃ a, r = .ok a) ∨ (b = false ∧ ∃ e, r = .error e)) := by
  obtain ⟨r, w', hcall, hidle, hok | ⟨hb, rfl⟩ | ⟨e, hfalse, -⟩⟩ :=
    hw.transact_inStore (F := fun _ => False) fun t =>
      (hm t).weaken (fun _ _ h => h) fun _ _ h => h.elim
  · exact ⟨r, w', hcall, hidle, Or.inl hok⟩
  · exact ⟨_, w', hcall, hidle, Or.inr ⟨hb, _, rfl⟩⟩
  · exact hfalse.elim

/-- **A claim** does not wait, and only an unavailable store makes it fail. -/
theorem Idle.claim (hw : w.Idle b) (c : Claimant) (now : Instant) :
    ∃ r w', c.claim now w = some (r, w') ∧ w'.Idle b ∧
      ((b = true ∧ ∃ found, r = .ok found) ∨ (b = false ∧ ∃ e, r = .error e)) := by
  obtain ⟨freed, w₁, hrelease, hw₁, ⟨hb, released, rfl⟩ | ⟨hb, e, rfl⟩⟩ :=
    hw.transact_answered fun t => Store.total_endStaleLeases (now.earlier c.lockTimeout)
  · obtain ⟨leased, w₂, hlease, hw₂, ⟨-, rows, rfl⟩ | ⟨hb', -⟩⟩ :=
      hw₁.transact_answered fun t => Store.total_leaseDue c now
    · exact ⟨_, w₂, bind_eq_ok_iff.mpr ⟨released, w₁, hrelease,
        bind_eq_ok_iff.mpr ⟨rows, w₂, hlease, rfl⟩⟩, hw₂, Or.inl ⟨hb, _, rfl⟩⟩
    · rw [hb] at hb'
      cases hb'
  · exact ⟨_, w₁, bind_eq_some_iff.mpr (Or.inr ⟨e, hrelease, rfl⟩), hw₁, Or.inr ⟨hb, e, rfl⟩⟩

/-- **An attempt in a transaction of its own** does not wait. -/
theorem Idle.process (hw : w.Idle b) (id : OrderId) (m : Nat) :
    ∃ r w' b', process id m w = some (r, w') ∧ w'.Idle b' := by
  -- The clock is read once the transaction has begun.
  have hbody (t : TxId) : Total (Sole t b) (do processIn t id (← Call.now) m : Call Outcome)
      (fun _ w => ∃ b', True ∧ w.Sole t b') (fun _ w => ∃ b', True ∧ w.Sole t b') := by
    intro w hw
    refine (@total_processIn t b w.now id m).weaken ?_ ?_ w hw
    · exact fun _ _ ⟨b', hw⟩ => ⟨b', trivial, hw⟩
    · exact fun _ _ ⟨b', _, hw⟩ => ⟨b', trivial, hw⟩
  obtain ⟨r, w', b', hcall, hidle, -⟩ :=
    hw.transact (Q := fun _ => True) (F := fun _ _ => True) hbody
  exact ⟨r, w', b', hcall, hidle⟩

/-- **A row's own transaction** does not wait, and if it fails for good, the store is as
    available as it was. -/
theorem Idle.settle (hw : w.Idle b) (p : OutboxProcessor) (e : OutboxRow) (now : Instant) :
    ∃ r w' b', p.settle e now w = some (r, w') ∧ w'.Idle b' ∧
      Closes b (fun _ => True) (fun cause b' => cause.isLasting = true → b' = b) r b' := by
  have hbody (t : TxId) : Total (Sole t b) (p.settleIn e now t)
      (fun _ w => ∃ b', True ∧ w.Sole t b')
      (fun cause w => ∃ b', (cause.isLasting = true → b' = b) ∧ w.Sole t b') :=
    (total_settleIn p e).weaken (fun _ _ ⟨b', hw⟩ => ⟨b', trivial, hw⟩) fun _ _ h => h
  exact hw.transact hbody

end transact

end World

end OrderFlow
