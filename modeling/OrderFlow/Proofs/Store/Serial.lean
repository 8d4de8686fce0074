import OrderFlow.Proofs.Store.View

/-! # Interleaved transactions are serializable

    Transactions ask the store for reads under a lock, writes and changes
    of rows, interleaved in any way in which none has to wait, and end by a
    commit, by a commit that is refused, or by being abandoned.  A log
    keeps what each of them has asked and been answered.

    The main statement: the committed tables are those of a serial run, in
    which only the committed transactions run, one after the other in the
    order of their commits; and there each gets the same answers.

    The reason is that a request reads and writes one row, under a lock
    that stays until its transaction ends.  So what an open transaction has
    been answered so far it would also be answered by the store as it is
    now (`Serializable.open_replay`), and a commit of another transaction
    changes none of the rows that this depends on. -/

namespace OrderFlow.Store

/-! ## Requests -/

/-- What a transaction asks of the store. -/
inductive Request where
  /-- Read an order under its lock. -/
  | holdOrder (id : OrderId)
  /-- Write an order. -/
  | writeOrder (o : Order)
  /-- Write an outbox row. -/
  | writeRow (e : OutboxRow)
  /-- Lease an outbox row. -/
  | leaseRow (id : RowId) (now : Instant) (claimant : String)
  /-- Settle an outbox row as done. -/
  | completeRow (id : RowId) (now : Instant)
  /-- Put an outbox row off. -/
  | postponeRow (id : RowId) (next : Instant) (error : String)
  /-- Settle an outbox row as given up on. -/
  | giveUpRow (id : RowId) (now : Instant) (error : String)
  /-- Write a dead letter. -/
  | writeLetter (d : DeadLetter)
  /-- Take a dead letter out. -/
  | dropLetter (id : OrderId)

/-- What the store answers. -/
inductive Reply where
  /-- It has been done. -/
  | done
  /-- The order, if there is one. -/
  | found (o : Option Order)
  /-- Was there anything to take out? -/
  | existed (b : Bool)
  deriving DecidableEq

/-- A reply or a refusal. -/
abbrev Answer := Except StoreError Reply

namespace Request

/-- The call that asks for it in transaction `t`. -/
def call (t : TxId) : Request → StoreCall Reply
  | .holdOrder id => do
    let o ← Store.holdOrder t id
    pure (.found o)
  | .writeOrder o => do
    Store.writeOrder t o
    pure .done
  | .writeRow e => do
    Store.writeRow t e
    pure .done
  | .leaseRow id now claimant => do
    Store.leaseRow t id now claimant
    pure .done
  | .completeRow id now => do
    Store.completeRow t id now
    pure .done
  | .postponeRow id next error => do
    Store.postponeRow t id next error
    pure .done
  | .giveUpRow id now error => do
    Store.giveUpRow t id now error
    pure .done
  | .writeLetter d => do
    Store.writeLetter t d
    pure .done
  | .dropLetter id => do
    let existed ← Store.dropLetter t id
    pure (.existed existed)

/-- The row that it reads or writes. -/
def key : Request → LockKey
  | .holdOrder id => .order id
  | .writeOrder o => .order o.id
  | .writeRow e => .row e.id
  | .leaseRow id _ _ | .completeRow id _ | .postponeRow id _ _ | .giveUpRow id _ _ => .row id
  | .writeLetter d => .deadLetter d.order
  | .dropLetter id => .deadLetter id

/-- A change of an outbox row that has to be there. -/
def changing (id : RowId) (f : OutboxRow → OutboxRow) (s : Store) (tx : Transaction) :
    Answer × Transaction :=
  match s.rowIn tx id with
  | none => (.error (.rowNotFound id), tx)
  | some e => (.ok .done, { tx with rows := tx.rows.put id (f e) })

/-- The answer, and what the transaction has become, once it has the lock. -/
def act : Request → Store → Transaction → Answer × Transaction
  | .holdOrder id, s, tx => (.ok (.found (s.orderIn tx id)), tx)
  | .writeOrder o, _, tx => (.ok .done, { tx with orders := tx.orders.put o.id o })
  | .writeRow e, _, tx => (.ok .done, { tx with rows := tx.rows.put e.id e })
  | .leaseRow id now claimant, s, tx => changing id (fun e => e.lease now claimant) s tx
  | .completeRow id now, s, tx => changing id (fun e => e.complete now) s tx
  | .postponeRow id next error, s, tx => changing id (fun e => e.postpone next error) s tx
  | .giveUpRow id now error, s, tx => changing id (fun e => e.giveUp now error) s tx
  | .writeLetter d, _, tx =>
    (.ok .done, { tx with deadLetters := tx.deadLetters.put d.order (some d) })
  | .dropLetter id, s, tx =>
    (.ok (.existed (s.letterIn tx id).isSome),
      { tx with deadLetters := tx.deadLetters.put id none })

end Request

/-- What a transaction has asked and been answered, oldest first. -/
abbrev Script := List (Request × Answer)

/-- What has happened in a store's transactions. -/
structure Log where
  /-- The scripts of the open transactions. -/
  running : TxId → Script := fun _ => []
  /-- The scripts of the committed transactions, in the order of their commits. -/
  committed : List Script := []

namespace Log

/-- One more answer in transaction `t`. -/
def note (log : Log) (t : TxId) (q : Request) (a : Answer) : Log :=
  { log with running := fun u => if u = t then log.running t ++ [(q, a)] else log.running u }

/-- Transaction `t` has ended. -/
def forget (log : Log) (t : TxId) : Log :=
  { log with running := fun u => if u = t then [] else log.running u }

/-- Transaction `t` has committed. -/
def commit (log : Log) (t : TxId) : Log :=
  { log.forget t with committed := log.committed ++ [log.running t] }

end Log

/-- One step of a history. -/
inductive Event where
  /-- A transaction begins, or tries to. -/
  | start
  /-- Transaction `t` asks for something. -/
  | ask (t : TxId) (q : Request)
  /-- Transaction `t` commits, or tries to. -/
  | commit (t : TxId)
  /-- Transaction `t` is abandoned. -/
  | abandon (t : TxId)
  /-- The store becomes available or unavailable. -/
  | setAvailable (value : Bool)

/-- The step, if nobody has to wait for a lock. -/
def Event.run : Event → Store × Log → Option (Store × Log)
  | .start, (s, log) => (Store.start s).map fun p => (p.2, log)
  | .ask t q, (s, log) => (q.call t s).map fun p => (p.2, log.note t q p.1)
  | .commit t, (s, log) =>
    (Store.commit t s).map fun p =>
      (p.2, match p.1 with
        | .ok _ => log.commit t
        | .error _ => log.forget t)
  | .abandon t, (s, log) => (Store.abandon t s).map fun p => (p.2, log.forget t)
  | .setAvailable value, (s, log) => some ({ s with available := value }, log)

/-- The history of an empty store, if nobody has to wait for a lock. -/
def execute (history : List Event) : Option (Store × Log) :=
  history.foldlM (fun c event => event.run c) ({}, {})

/-! ## The serial run -/

/-- Asks for one thing after the other and collects the answers. -/
def askAll (t : TxId) : List Request → StoreCall (List Answer)
  | [] => pure []
  | q :: rest => do
    let a ← (q.call t).outcome
    let answers ← askAll t rest
    pure (a :: answers)

/-- A transaction from its begin to its commit. -/
def transaction (requests : List Request) : StoreCall (List Answer) := do
  let t ← start
  let answers ← askAll t requests
  commit t
  pure answers

/-- Transactions one after the other. -/
def serially : List (List Request) → StoreCall (List (List Answer))
  | [] => pure []
  | requests :: rest => do
    let answers ← transaction requests
    let more ← serially rest
    pure (answers :: more)

/-! ## One request -/

section request
variable {t : TxId} {s s' s'' : Store} {tx tx' : Transaction}

theorem underLock_bind_pure {α β : Type} {key : LockKey}
    {act : Store → Transaction → Except StoreError α × Transaction} (f : α → β) :
    (underLock t key act >>= fun a => pure (f a)) =
      underLock t key fun s tx => ((act s tx).1.map f, (act s tx).2) := by
  funext s
  rw [Attempt.bind_apply]
  unfold underLock
  cases htx : s.opened.find? t with
  | none => rfl
  | some tx =>
    by_cases hfree : s.lockable t key = true
    · simp only [hfree, if_true]
      cases (act s (tx.hold key)).1 <;> rfl
    · simp only [hfree, Bool.false_eq_true, if_false]

/-- **A request is one act under one lock.** -/
theorem Request.call_eq (t : TxId) (q : Request) : q.call t = underLock t q.key q.act := by
  have changed (id : RowId) (f : OutboxRow → OutboxRow) :
      (changeRow t id f >>= fun _ => pure Reply.done) =
        underLock t (.row id) (Request.changing id f) := by
    rw [changeRow_eq, underLock_bind_pure fun _ => Reply.done]
    congr 1
    funext s tx
    unfold Request.changing
    cases s.rowIn tx id <;> rfl
  cases q with
  | holdOrder id =>
    show (Store.holdOrder t id >>= fun o => pure (Reply.found o)) = _
    rw [holdOrder_eq, underLock_bind_pure]
    rfl
  | writeOrder o =>
    show (Store.writeOrder t o >>= fun _ => pure Reply.done) = _
    rw [writeOrder_eq, underLock_bind_pure fun _ => Reply.done]
    rfl
  | writeRow e =>
    show (Store.writeRow t e >>= fun _ => pure Reply.done) = _
    rw [writeRow_eq, underLock_bind_pure fun _ => Reply.done]
    rfl
  | leaseRow id now claimant => exact changed id _
  | completeRow id now => exact changed id _
  | postponeRow id next error => exact changed id _
  | giveUpRow id now error => exact changed id _
  | writeLetter d =>
    show (Store.writeLetter t d >>= fun _ => pure Reply.done) = _
    rw [writeLetter_eq, underLock_bind_pure fun _ => Reply.done]
    rfl
  | dropLetter id =>
    show (Store.dropLetter t id >>= fun b => pure (Reply.existed b)) = _
    rw [dropLetter_eq, underLock_bind_pure]
    rfl

theorem Request.act_held (q : Request) (s : Store) (tx : Transaction) :
    (q.act s tx).2.held = tx.held := by
  have changed (id : RowId) (f : OutboxRow → OutboxRow) :
      (Request.changing id f s tx).2.held = tx.held := by
    unfold Request.changing
    cases s.rowIn tx id <;> rfl
  cases q <;> first | rfl | exact changed _ _

/-- Two stores have the same committed row under a key. -/
def SameAt (s s' : Store) : LockKey → Prop
  | .order id => s.orders.find? id = s'.orders.find? id
  | .row id => s.rows.find? id = s'.rows.find? id
  | .deadLetter id => s.deadLetters.find? id = s'.deadLetters.find? id

/-- **Frame**: a request depends on the committed tables only through the row
    that it locks. -/
theorem Request.act_congr {q : Request} (h : SameAt s s' q.key) (tx : Transaction) :
    q.act s tx = q.act s' tx := by
  have changed (id : RowId) (f : OutboxRow → OutboxRow)
      (hid : s.rows.find? id = s'.rows.find? id) :
      Request.changing id f s tx = Request.changing id f s' tx := by
    simp only [Request.changing, rowIn, hid]
  cases q with
  | holdOrder id =>
    have hid : s.orders.find? id = s'.orders.find? id := h
    simp only [Request.act, orderIn, hid]
  | dropLetter id =>
    have hid : s.deadLetters.find? id = s'.deadLetters.find? id := h
    simp only [Request.act, letterIn, hid]
  | leaseRow id now claimant => exact changed id _ h
  | completeRow id now => exact changed id _ h
  | postponeRow id next error => exact changed id _ h
  | giveUpRow id now error => exact changed id _ h
  | writeOrder | writeRow | writeLetter => rfl

end request

/-! ## Scripts replayed -/

/-- The answers to a script, and what the transaction has become, if the
    committed tables had been those of `s` all the time. -/
def replay (s : Store) : List Request → Transaction → List Answer × Transaction
  | [], tx => ([], tx)
  | q :: rest, tx =>
    let step := q.act s (tx.hold q.key)
    let later := replay s rest step.2
    (step.1 :: later.1, later.2)

section replay
variable {t : TxId} {s s' : Store} {tx : Transaction}

theorem held_replay (s : Store) (qs : List Request) (tx : Transaction) {k : LockKey}
    (h : k ∈ tx.held) : k ∈ (replay s qs tx).2.held := by
  induction qs generalizing tx with
  | nil => exact h
  | cons q rest ih =>
    refine ih (q.act s (tx.hold q.key)).2 ?_
    rw [Request.act_held]
    exact Transaction.mem_held_of_mem h

/-- The rows under the locks that a script ends with decide all of it. -/
theorem replay_congr {qs : List Request}
    (h : ∀ k ∈ (replay s qs tx).2.held, SameAt s s' k) : replay s qs tx = replay s' qs tx := by
  induction qs generalizing tx with
  | nil => rfl
  | cons q rest ih =>
    -- Locks are not given back, so the lock of `q` is among those at the end.
    have hkey : q.key ∈ (replay s (q :: rest) tx).2.held := by
      refine held_replay s rest (q.act s (tx.hold q.key)).2 ?_
      rw [Request.act_held]
      exact Transaction.mem_held_self
    have hact := Request.act_congr (h _ hkey) (tx.hold q.key)
    have hrest : s.replay rest (q.act s (tx.hold q.key)).2 =
        s'.replay rest (q.act s (tx.hold q.key)).2 := ih h
    simp only [replay]
    rw [← hact, hrest]

theorem replay_append (s : Store) (qs : List Request) (q : Request) (tx : Transaction) :
    replay s (qs ++ [q]) tx =
      ((replay s qs tx).1 ++ [(q.act s ((replay s qs tx).2.hold q.key)).1],
        (q.act s ((replay s qs tx).2.hold q.key)).2) := by
  induction qs generalizing tx with
  | nil => rfl
  | cons q' rest ih => simp only [List.cons_append, replay, ih]

end replay

/-! ## One transaction alone -/

/-- A store between two transactions of a serial run. -/
structure Idle (s : Store) : Prop where
  orderly : s.Orderly
  available : s.available = true
  closed : ∀ t, s.opened.find? t = none

section alone
variable {t : TxId} {s s' : Store} {tx tx' : Transaction}

theorem SameTables.sameAt (h : SameTables s s') (k : LockKey) : SameAt s s' k := by
  cases k with
  | order id => exact congrArg (·.find? id) h.orders
  | row id => exact congrArg (·.find? id) h.rows
  | deadLetter id => exact congrArg (·.find? id) h.deadLetters

theorem SameTables.replay (h : SameTables s s') (qs : List Request) (tx : Transaction) :
    s.replay qs tx = s'.replay qs tx :=
  replay_congr fun k _ => h.sameAt k

theorem idle_empty : Idle {} where
  orderly := orderly_empty
  available := rfl
  closed _ := rfl

theorem Request.call_orderly (h : s.Orderly) {q : Request} {a : Answer}
    (hq : q.call t s = some (a, s')) : s'.Orderly := by
  have hR : Attempt.Chains fun s s' : Store => s.Orderly → s'.Orderly :=
    ⟨fun _ h => h, fun h₁ h₂ h => h₂ (h₁ h)⟩
  have answered {α : Type} {m : StoreCall α} {f : α → Reply}
      (hm : Attempt.Moves (fun s s' => s.Orderly → s'.Orderly) m) :
      Attempt.Moves (fun s s' => s.Orderly → s'.Orderly) (m >>= fun a => pure (f a)) :=
    hm.bind hR fun _ => Attempt.Moves.pure hR _
  have changed (id : RowId) {f : OutboxRow → OutboxRow} (hf : KeepsId f) :
      Attempt.Moves (fun s s' => s.Orderly → s'.Orderly)
        (changeRow t id f >>= fun _ => pure Reply.done) :=
    answered (f := fun _ => .done) fun _ _ _ hs h => h.changeRow hf hs
  cases q with
  | holdOrder id => exact answered (f := .found) (fun _ _ _ hs h => h.holdOrder hs) s a s' hq h
  | writeOrder o =>
    exact answered (f := fun _ => .done) (fun _ _ _ hs h => h.writeOrder hs) s a s' hq h
  | writeRow e =>
    exact answered (f := fun _ => .done) (fun _ _ _ hs h => h.writeRow hs) s a s' hq h
  | leaseRow id now claimant =>
    exact changed id (f := fun e => e.lease now claimant) (fun _ => rfl) s a s' hq h
  | completeRow id now =>
    exact changed id (f := fun e => e.complete now) (fun _ => rfl) s a s' hq h
  | postponeRow id next error =>
    exact changed id (f := fun e => e.postpone next error) (fun _ => rfl) s a s' hq h
  | giveUpRow id now error =>
    exact changed id (f := fun e => e.giveUp now error) (fun _ => rfl) s a s' hq h
  | writeLetter d =>
    exact answered (f := fun _ => .done) (fun _ _ _ hs h => h.writeLetter hs) s a s' hq h
  | dropLetter id =>
    exact answered (f := .existed) (fun _ _ _ hs h => h.dropLetter hs) s a s' hq h

/-- The only open transaction never waits. -/
theorem Request.call_alone (h : s.Orderly) (htx : s.opened.find? t = some tx)
    (alone : ∀ u, u ≠ t → s.opened.find? u = none) (q : Request) :
    q.call t s = some ((q.act s (tx.hold q.key)).1,
      (s.take t q.key).update t (q.act s (tx.hold q.key)).2) := by
  have hfree : s.lockable t q.key = true := by
    rw [lockable_iff]
    intro u hu
    -- Whoever has the lock is open, and only `t` is.
    obtain ⟨txu, hopen, -⟩ := h.owned.mp hu
    by_cases hut : u = t
    · exact hut
    · rw [alone u hut] at hopen
      cases hopen
  rw [Request.call_eq]
  unfold underLock
  simp only [htx, hfree, if_true]

theorem askAll_alone (h : s.Orderly) (htx : s.opened.find? t = some tx)
    (alone : ∀ u, u ≠ t → s.opened.find? u = none) (qs : List Request) :
    ∃ s', askAll t qs s = some (.ok (s.replay qs tx).1, s') ∧
      Progress t s tx s' (s.replay qs tx).2 ∧ s'.Orderly ∧ s'.available = s.available := by
  induction qs generalizing s tx with
  | nil => exact ⟨s, rfl, Progress.refl htx, h, rfl⟩
  | cons q rest ih =>
    have hcall := Request.call_alone h htx alone q
    have horderly := Request.call_orderly h hcall
    have hp : Progress t s tx ((s.take t q.key).update t (q.act s (tx.hold q.key)).2)
        (q.act s (tx.hold q.key)).2 := by
      rw [Request.call_eq] at hcall
      obtain ⟨tx', -, hp⟩ := underLock_eq_some q.act_held hcall
      have htx' := hp.before
      rw [htx, Option.some.injEq] at htx'
      exact htx' ▸ hp
    have havail : ((s.take t q.key).update t (q.act s (tx.hold q.key)).2).available =
        s.available := by
      unfold update take
      simp only [htx]
      split <;> rfl
    obtain ⟨s', hask, hp', horderly', havail'⟩ :=
      ih horderly hp.after fun u hu => (hp.others hu).trans (alone u hu)
    -- Nothing is committed meanwhile, so the rest may as well be replayed on `s`.
    rw [← hp.sameTables.replay] at hask hp'
    refine ⟨s', ?_, hp.trans hp', horderly', havail'.trans havail⟩
    have houtcome : ((q.call t).outcome : StoreCall Answer) s =
        some (.ok (q.act s (tx.hold q.key)).1,
          (s.take t q.key).update t (q.act s (tx.hold q.key)).2) :=
      Attempt.outcome_eq_some_iff.mpr ⟨_, hcall, rfl⟩
    exact Attempt.bind_eq_ok_iff.mpr
      ⟨_, _, houtcome, Attempt.bind_eq_ok_iff.mpr ⟨_, _, hask, rfl⟩⟩

/-- **A transaction alone** answers as the committed tables say, and puts
    what it has staged over them. -/
theorem transaction_idle (h : Idle s) (qs : List Request) :
    ∃ s', transaction qs s = some (.ok (s.replay qs {}).1, s') ∧
      SameTables (s.absorb (s.replay qs {}).2) s' ∧ Idle s' := by
  have hstart : start s = some (.ok s.nextTx, s.begun) := by
    unfold start
    rw [if_pos h.available]
    rfl
  have hothers : ∀ u, u ≠ s.nextTx → s.begun.opened.find? u = none := by
    intro u hu
    rw [opened_begun, if_neg (Ne.symm hu), h.closed]
  have hempty : s.begun.opened.find? s.nextTx = some {} := by simp [opened_begun]
  obtain ⟨s₂, hask, hp, horderly, havail⟩ :=
    askAll_alone h.orderly.start (t := s.nextTx) hempty hothers qs
  have hsame : SameTables s.begun s := ⟨rfl, rfl, rfl⟩
  rw [hsame.replay] at hask hp
  have hcommit : commit s.nextTx s₂ =
      some (.ok (), (s₂.absorb (s.replay qs {}).2).close s.nextTx) := by
    unfold commit
    rw [hp.after]
    exact if_pos (havail.trans h.available)
  refine ⟨_, Attempt.bind_eq_ok_iff.mpr ⟨_, _, hstart, Attempt.bind_eq_ok_iff.mpr ⟨_, _, hask,
    Attempt.bind_eq_ok_iff.mpr ⟨_, _, hcommit, rfl⟩⟩⟩, ?_, ?_⟩
  · have htables := (hsame.symm.trans hp.sameTables).absorb (s.replay qs {}).2
    exact htables.trans (sameTables_close _ _)
  · refine ⟨(horderly.absorb (horderly.each hp.after)).close _, ?_, ?_⟩
    · exact havail.trans h.available
    · intro u
      rw [opened_close]
      split
      · rfl
      · next hu => exact (hp.others (Ne.symm hu)).trans (hothers u (Ne.symm hu))

theorem serially_append {ps : List (List Request)} {qs : List Request} {s s₁ s₂ : Store}
    {answers : List (List Answer)} {more : List Answer}
    (h₁ : serially ps s = some (.ok answers, s₁)) (h₂ : transaction qs s₁ = some (.ok more, s₂)) :
    serially (ps ++ [qs]) s = some (.ok (answers ++ [more]), s₂) := by
  induction ps generalizing s answers with
  | nil =>
    cases h₁
    exact Attempt.bind_eq_ok_iff.mpr ⟨_, _, h₂, rfl⟩
  | cons p rest ih =>
    obtain ⟨a, s', ha, hrest⟩ := Attempt.bind_eq_ok_iff.mp h₁
    obtain ⟨as, s'', has, hpure⟩ := Attempt.bind_eq_ok_iff.mp hrest
    cases hpure
    exact Attempt.bind_eq_ok_iff.mpr
      ⟨a, s', ha, Attempt.bind_eq_ok_iff.mpr ⟨as ++ [more], s₂, ih has, rfl⟩⟩

end alone

/-! ## Histories -/

/-- What a script asks. -/
def Script.requests (script : Script) : List Request :=
  script.map (·.1)

/-- What a script is answered. -/
def Script.answers (script : Script) : List Answer :=
  script.map (·.2)

/-- **What a history keeps.**  The store is in order; each open transaction
    has the answers that the tables of now would give it; and the committed
    tables are those of the serial run. -/
structure Serializable (s : Store) (log : Log) : Prop where
  orderly : s.Orderly
  fresh : ∀ {t}, s.nextTx ≤ t → log.running t = []
  open_replay : ∀ {t tx}, s.opened.find? t = some tx →
    s.replay (Script.requests (log.running t)) {} = (Script.answers (log.running t), tx)
  serial : ∃ s', serially (log.committed.map Script.requests) {} =
      some (.ok (log.committed.map Script.answers), s') ∧
    SameTables s s' ∧ Idle s'

section history
variable {t : TxId} {s s' : Store} {log : Log}

theorem serializable_empty : Serializable {} {} where
  orderly := idle_empty.orderly
  fresh _ := rfl
  open_replay := by intro t tx h; cases h
  serial := ⟨{}, rfl, ⟨rfl, rfl, rfl⟩, idle_empty⟩

/-- As long as the tables stay the same, the serial run still leads to them. -/
theorem Serializable.serial_of_sameTables (h : Serializable s log) (hs : SameTables s s') :
    ∃ s'', serially (log.committed.map Script.requests) {} =
        some (.ok (log.committed.map Script.answers), s'') ∧ SameTables s' s'' ∧ Idle s'' := by
  obtain ⟨s'', hrun, htables, hidle⟩ := h.serial
  exact ⟨s'', hrun, hs.symm.trans htables, hidle⟩

theorem Serializable.setAvailable (h : Serializable s log) (b : Bool) :
    Serializable { s with available := b } log := by
  have hsame : SameTables s { s with available := b } := ⟨rfl, rfl, rfl⟩
  refine ⟨h.orderly.setAvailable b, h.fresh, ?_, h.serial_of_sameTables hsame⟩
  intro u tx hu
  rw [← hsame.replay]
  exact h.open_replay hu

theorem Serializable.start (h : Serializable s log) {r : Except StoreError TxId}
    (hs : start s = some (r, s')) : Serializable s' log := by
  rcases start_eq_some hs with ⟨-, -, rfl⟩ | ⟨-, -, rfl⟩
  · have hsame : SameTables s s.begun := ⟨rfl, rfl, rfl⟩
    refine ⟨h.orderly.start, fun ht => h.fresh (Nat.le_of_succ_le ht), ?_,
      h.serial_of_sameTables hsame⟩
    intro u tx hu
    rw [← hsame.replay]
    rw [opened_begun] at hu
    split at hu
    · next heq =>
      cases hu
      -- Under a new number nothing has been asked yet.
      rw [h.fresh (Nat.le_of_eq heq)]
      rfl
    · exact h.open_replay hu
  · exact h

theorem Serializable.ask (h : Serializable s log) {q : Request} {a : Answer}
    (hs : q.call t s = some (a, s')) : Serializable s' (log.note t q a) := by
  have horderly := Request.call_orderly h.orderly hs
  rw [Request.call_eq] at hs
  obtain ⟨tx, ha, hp⟩ := underLock_eq_some q.act_held hs
  refine ⟨horderly, ?_, ?_, h.serial_of_sameTables hp.sameTables⟩
  · intro u hu
    -- Only an open transaction asks, and its number is below the next one.
    have hut : u ≠ t := by
      rintro rfl
      rw [hp.nextTx] at hu
      exact Nat.lt_irrefl _ (Nat.lt_of_lt_of_le (h.orderly.below hp.before) hu)
    rw [hp.nextTx] at hu
    simpa [Log.note, hut] using h.fresh hu
  · intro u txu hu
    rw [← hp.sameTables.replay]
    by_cases hut : u = t
    · -- The new answer is what the replayed script gives, continued by one request.
      subst hut
      have htxu := hp.after
      rw [hu, Option.some.injEq] at htxu
      have hreplay := h.open_replay hp.before
      have hrequests : Script.requests ((log.note u q a).running u) =
          Script.requests (log.running u) ++ [q] := by simp [Log.note, Script.requests]
      have hanswers : Script.answers ((log.note u q a).running u) =
          Script.answers (log.running u) ++ [a] := by simp [Log.note, Script.answers]
      rw [hrequests, hanswers, replay_append, hreplay, ha, htxu]
    · rw [hp.others hut] at hu
      simpa [Log.note, hut] using h.open_replay hu

/-- A transaction that ends without a commit leaves nothing behind. -/
theorem Serializable.close (h : Serializable s log) (t : TxId) :
    Serializable (s.close t) (log.forget t) := by
  have hsame := sameTables_close s t
  refine ⟨h.orderly.close t, ?_, ?_, h.serial_of_sameTables hsame⟩
  · intro u hu
    by_cases hut : u = t
    · simp [Log.forget, hut]
    · simpa [Log.forget, hut] using h.fresh hu
  · intro u txu hu
    rw [opened_close] at hu
    split at hu
    · cases hu
    · next hut =>
      rw [← hsame.replay]
      simpa [Log.forget, Ne.symm hut] using h.open_replay hu

/-- What a transaction commits is under its own locks. -/
theorem sameAt_absorb {tx : Transaction} (htx : tx.Orderly) {k : LockKey} (hk : k ∉ tx.held) :
    SameAt s (s.absorb tx) k := by
  cases k with
  | order id => exact (Table.find?_putAll_of_none (htx.order_unstaged hk)).symm
  | row id => exact (Table.find?_putAll_of_none (htx.row_unstaged hk)).symm
  | deadLetter id => exact (Table.find?_settle_of_none (htx.letter_unstaged hk)).symm

theorem Serializable.commit (h : Serializable s log) {tx : Transaction}
    (htx : s.opened.find? t = some tx) :
    Serializable ((s.absorb tx).close t) (log.commit t) := by
  have horderly := h.orderly.each htx
  refine ⟨(h.orderly.absorb horderly).close t, ?_, ?_, ?_⟩
  · intro u hu
    by_cases hut : u = t
    · simp [Log.commit, Log.forget, hut]
    · simpa [Log.commit, Log.forget, hut] using h.fresh hu
  · -- Another open transaction has read nothing that this one has written.
    intro u txu hu
    rw [opened_close] at hu
    split at hu
    · cases hu
    · next hut =>
      have hopen := h.open_replay hu
      have hsame : ∀ k ∈ (s.replay (Script.requests (log.running u)) {}).2.held,
          SameAt s ((s.absorb tx).close t) k := by
        intro k hk
        rw [hopen] at hk
        exact sameAt_absorb horderly (h.orderly.not_held htx hu (Ne.symm hut) hk)
      have hrunning : (log.commit t).running u = log.running u := by
        simp [Log.commit, Log.forget, Ne.symm hut]
      rw [hrunning, ← replay_congr hsame]
      exact hopen
  · obtain ⟨s₁, hrun, htables, hidle⟩ := h.serial
    -- On the same tables and alone, `t` gets its answers again and stages the same.
    obtain ⟨s₂, halone, habsorb, hidle'⟩ :=
      transaction_idle hidle (Script.requests (log.running t))
    rw [← htables.replay, h.open_replay htx] at halone habsorb
    have hrun' := serially_append hrun halone
    have hmap {β : Type} (f : Script → β) :
        (log.commit t).committed.map f = log.committed.map f ++ [f (log.running t)] := by
      simp [Log.commit, Log.forget]
    have hclose := sameTables_close (s.absorb tx) t
    rw [hmap, hmap]
    exact ⟨s₂, hrun', hclose.symm.trans ((htables.absorb tx).trans habsorb), hidle'⟩

/-- **One step** keeps a history serializable. -/
theorem Serializable.event {event : Event} {log' : Log} (h : Serializable s log)
    (hs : event.run (s, log) = some (s', log')) : Serializable s' log' := by
  cases event with
  | start =>
    obtain ⟨⟨r, s₁⟩, hcall, heq⟩ := Option.map_eq_some_iff.mp hs
    cases heq
    exact h.start hcall
  | ask t q =>
    obtain ⟨⟨a, s₁⟩, hcall, heq⟩ := Option.map_eq_some_iff.mp hs
    cases heq
    exact h.ask hcall
  | commit t =>
    obtain ⟨⟨r, s₁⟩, hcall, heq⟩ := Option.map_eq_some_iff.mp hs
    obtain ⟨tx, htx, ⟨rfl, -, rfl⟩ | ⟨rfl, -, rfl⟩⟩ := commit_eq_some hcall
    · cases heq
      exact h.commit htx
    · cases heq
      exact h.close t
  | abandon t =>
    obtain ⟨⟨r, s₁⟩, hcall, heq⟩ := Option.map_eq_some_iff.mp hs
    obtain ⟨tx, htx, -, rfl⟩ := abandon_eq_some hcall
    cases heq
    exact h.close t
  | setAvailable value =>
    cases hs
    exact h.setAvailable value

/-- **A whole history** is serializable. -/
theorem serializable_foldlM {history : List Event} {c c' : Store × Log}
    (h : Serializable c.1 c.2)
    (hrun : history.foldlM (fun c event => event.run c) c = some c') :
    Serializable c'.1 c'.2 := by
  induction history generalizing c with
  | nil =>
    cases hrun
    exact h
  | cons event rest ih =>
    rw [List.foldlM_cons] at hrun
    obtain ⟨c₁, hevent, hrest⟩ := Option.bind_eq_some_iff.mp hrun
    exact ih (h.event hevent) hrest

end history

/-- **Serializability in commit order.**  After any interleaving of any number
    of transactions, the committed tables are those that the committed ones
    leave behind when they run alone, one after the other in the order of
    their commits, and every request is then answered as it was. -/
theorem interleaved_eq_serial {history : List Event} {s : Store} {log : Log}
    (h : execute history = some (s, log)) :
    ∃ s', serially (log.committed.map Script.requests) {} =
        some (.ok (log.committed.map Script.answers), s') ∧
      s.orders = s'.orders ∧ s.rows = s'.rows ∧ s.deadLetters = s'.deadLetters := by
  obtain ⟨s', hrun, htables, -⟩ := (serializable_foldlM serializable_empty h).serial
  exact ⟨s', hrun, htables.orders, htables.rows, htables.deadLetters⟩

/-- Two transactions overlap, the later one commits first, and a third one
    reads what the first has written. -/
def overlapping : List Event := [
  .start,
  .start,
  .ask 1 (.writeOrder (.fresh ⟨.ofNat 7⟩ .newYear2024)),
  .ask 2 (.completeRow ⟨.ofNat 8⟩ .newYear2024),
  .ask 2 (.writeOrder (.fresh ⟨.ofNat 9⟩ .newYear2024)),
  .commit 2,
  .commit 1,
  .start,
  .ask 3 (.holdOrder ⟨.ofNat 7⟩),
  .commit 3]

theorem interleaved_eq_serial_overlapping :
    ∃ s log, execute overlapping = some (s, log) ∧ log.committed.length = 3 ∧
      ∃ s', serially (log.committed.map Script.requests) {} =
          some (.ok (log.committed.map Script.answers), s') ∧
        s.orders = s'.orders ∧ s.rows = s'.rows ∧ s.deadLetters = s'.deadLetters := by
  have hlength : (execute overlapping).map (·.2.committed.length) = some 3 := rfl
  obtain ⟨⟨s, log⟩, hrun, hthree⟩ := Option.map_eq_some_iff.mp hlength
  exact ⟨s, log, hrun, hthree, interleaved_eq_serial hrun⟩

end OrderFlow.Store
