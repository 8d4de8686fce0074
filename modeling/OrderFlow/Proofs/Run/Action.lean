import OrderFlow.Pipeline.Basic
import OrderFlow.Proofs.Operations

/-! # Actions

    Everything that users, workers and others do to a pipeline's world, one
    action after the other: the operations, staged on an open transaction
    or in one of their own; polls and runs of the workers; and whatever
    happens around the store.

    An action that would have to wait has no outcome and is not a step.

    For a relation between the world before and the world after, the second
    half says which pieces have to respect it (`Respects`) for all actions
    to respect it. -/

namespace OrderFlow

open World

/-- A worker. -/
inductive Worker where
  /-- It takes ids from the queue in memory. -/
  | queue (q : QueueReader)
  /-- It processes the orders of outbox rows. -/
  | outbox (p : OutboxProcessor) (intervalMs : Nat)
  /-- It forwards outbox rows to the transport. -/
  | relay (r : Forwarder) (intervalMs : Nat)
  /-- It takes messages from the transport. -/
  | transport (c : MessageConsumer)

/-- A round of the worker's loop. -/
def Worker.round : Worker → Round
  | .queue q => q.round
  | .outbox p intervalMs => p.round intervalMs
  | .relay r intervalMs => r.round intervalMs
  | .transport c => c.round

/-- What there is around the tables and the transactions. -/
structure Surroundings where
  /-- The clock, which may have been set back. -/
  clock : Clock
  /-- Is the store available? -/
  available : Bool
  /-- The transport. -/
  transport : Transport
  /-- The queue in memory. -/
  queue : Queue
  /-- What the processor does from now on. -/
  react : List OrderId → OrderId → Reaction
  /-- What others do before the next calls. -/
  disturbances : List Disturbance
  /-- When the store goes down while messages are sent. -/
  sendsToOutage : Nat

/-- The same tables and transactions in other surroundings. -/
def World.inside (w : World) (e : Surroundings) : World :=
  { w with
    clock := e.clock
    store := { w.store with available := e.available }
    transport := e.transport
    queue := e.queue
    processor := { w.processor with react := e.react }
    disturbances := e.disturbances
    sendsToOutage := e.sendsToOutage }

/-- One thing that is done. -/
inductive Action where
  /-- Accepts an order. -/
  | accept (mode : PublishMode) (correlation : Option String)
  /-- Gives an order another chance. -/
  | readmit (mode : PublishMode) (id : OrderId)
  /-- Makes an attempt on an order. -/
  | process (id : OrderId) (maxRetries : Nat)
  /-- Polls the outbox and processes orders. -/
  | pollOutbox (p : OutboxProcessor) (now : Instant)
  /-- Polls the outbox and forwards rows. -/
  | relay (r : Forwarder) (now : Instant)
  /-- Polls the transport. -/
  | consume (c : MessageConsumer)
  /-- Runs a worker until it stops. -/
  | work (worker : Worker) (forMs budget : Nat)
  /-- Begins a transaction. -/
  | start
  /-- Accepts an order in transaction `t`. -/
  | stageAccept (mode : PublishMode) (t : TxId) (correlation : Option String) (now : Instant)
  /-- Gives an order another chance in transaction `t`. -/
  | stageReadmit (mode : PublishMode) (t : TxId) (id : OrderId) (now : Instant)
  /-- Makes an attempt on an order in transaction `t`. -/
  | stageAttempt (t : TxId) (id : OrderId) (now : Instant) (maxRetries : Nat)
  /-- Commits transaction `t` and emits its signals. -/
  | commit (mode : PublishMode) (t : TxId) (signals : List Signal)
  /-- Abandons transaction `t`. -/
  | abandon (t : TxId)
  /-- The surroundings change. -/
  | others (e : Surroundings)

/-- The call that does it; its answer is dropped. -/
def Action.call : Action → Call Unit
  | .accept mode correlation => do let _ ← mode.accept correlation
  | Action.readmit mode id => mode.readmit id
  | .process id maxRetries => do let _ ← OrderFlow.process id maxRetries
  | .pollOutbox p now => do let _ ← p.poll now
  | .relay r now => do let _ ← r.poll now
  | .consume c => do let _ ← c.poll
  | .work worker forMs budget => do let _ ← worker.round.run forMs budget
  | .start => do let _ ← Call.start
  | .stageAccept mode t correlation now => do let _ ← mode.stageAccept t correlation now
  | Action.stageReadmit mode t id now => do let _ ← mode.stageReadmit t id now
  | .stageAttempt t id now maxRetries => do let _ ← processIn t id now maxRetries
  | .commit mode t signals => mode.commitThenEmit t signals
  | .abandon t => Call.inStore (Store.abandon t)
  | .others e => .modify fun w => w.inside e

/-- The world after one action after the other, if none has to wait. -/
def World.play (w : World) (actions : List Action) : Option World :=
  actions.foldlM (fun w a => (a.call w).map (·.2)) w

/-- The first of several actions, and the others after it. -/
theorem World.play_cons {w w' : World} {a : Action} {rest : List Action}
    (h : w.play (a :: rest) = some w') :
    ∃ r w₁, a.call w = some (r, w₁) ∧ w₁.play rest = some w' := by
  unfold World.play at h ⊢
  rw [List.foldlM_cons] at h
  obtain ⟨w₁, hfirst, hrest⟩ := Option.bind_eq_some_iff.mp h
  obtain ⟨⟨r, w₁⟩, hcall, rfl⟩ := Option.map_eq_some_iff.mp hfirst
  exact ⟨r, w₁, hcall, hrest⟩

/-- The action announces orders only in the given modes, and forwards outbox
    rows only if that is allowed. -/
def Action.Within (modes : PublishMode → Prop) (forwards : Prop) : Action → Prop
  | .accept mode _ | Action.readmit mode _ | .stageAccept mode _ _ _
  | Action.stageReadmit mode _ _ _ => modes mode
  | .relay _ _ | .work (.relay _ _) _ _ => forwards
  | _ => True

/-- After how many failed attempts the worker gives up on an order, if it makes
    attempts. -/
def Worker.maxRetries? : Worker → Option Nat
  | .queue q => some q.maxRetries
  | .outbox p _ => some p.maxRetries
  | .relay _ _ => none
  | .transport c => some c.maxRetries

/-- After how many failed attempts the action gives up on an order, if it makes
    attempts. -/
def Action.maxRetries? : Action → Option Nat
  | .process _ maxRetries | .stageAttempt _ _ _ maxRetries => some maxRetries
  | .pollOutbox p _ => some p.maxRetries
  | .consume c => some c.maxRetries
  | .work worker _ _ => worker.maxRetries?
  | _ => none

/-! ## Workers

    A worker's run is made of rounds, and most rounds are a poll and a sleep. -/

namespace Round

open Attempt

variable {R : World → World → Prop} (hR : Chains R)
include hR

theorem moves_loop {round : Round} (hround : ∀ stop stats, Moves R (round stop stats))
    (stop : StopRequest) (budget : Nat) (stats : Tally) :
    Moves R (round.loop stop budget stats) := by
  induction budget generalizing stats with
  | zero => exact Moves.wait
  | succ budget ih =>
    refine (Moves.read hR _).bind hR fun come => ?_
    split
    · exact Moves.pure hR _
    · refine (hround stop stats).bind hR fun (stats', stopped) => ?_
      dsimp only
      split
      · exact Moves.pure hR _
      · exact ih stats'

theorem moves_run {round : Round} (hround : ∀ stop stats, Moves R (round stop stats))
    (forMs budget : Nat) : Moves R (round.run forMs budget) :=
  (Moves.read hR _).bind hR fun _ => moves_loop hR hround _ budget {}

variable (hsleep : ∀ (stop : StopRequest) ms, Moves R (stop.sleep ms))
include hsleep

/-- A round that polls the outbox and then sleeps. -/
theorem moves_pollThenSleep {α : Type} {poll : Instant → Call α}
    (hpoll : ∀ now, Moves R (poll now)) (count : Except OperationError α → Tally)
    (stop : StopRequest) (intervalMs : Nat) :
    Moves R (do
      let stats := count (← (poll (← Call.now)).outcome)
      pure (stats, ← stop.sleep intervalMs) : Call (Tally × Bool)) := by
  refine (Moves.read hR _).bind hR fun now => (hpoll now).outcome.bind hR fun r => ?_
  exact (hsleep stop intervalMs).bind hR fun _ => Moves.pure hR _

/-- A round that polls the transport, and sleeps if that fails. -/
theorem moves_transportRound {c : MessageConsumer} (hpoll : Moves R c.poll)
    (stop : StopRequest) (stats : Tally) : Moves R (c.round stop stats) := by
  refine hpoll.outcome.bind hR fun r => ?_
  cases r with
  | ok outcome => exact Moves.pure hR _
  | error e => exact (hsleep stop c.waitMs).bind hR fun _ => Moves.pure hR _

end Round

/-! ## Pieces of actions -/

/-- **A relation between worlds that the common pieces respect**, attempts as
    long as they are within limits. -/
structure Respects (R : World → World → Prop) (limits : Nat → Prop) : Prop where
  chains : Attempt.Chains R
  aside : ∀ {w w'}, Aside w w' → R w w'
  start : Attempt.Moves R Call.start
  attempt : ∀ t id now {m}, limits m → Attempt.Moves R (processIn t id now m)
  endStaleLeases : ∀ t limit, Attempt.Moves R (Call.inStore (Store.endStaleLeases t limit))
  claimDue : ∀ t limit now, Attempt.Moves R (Call.inStore (Store.claimDue t limit now))
  leaseRow : ∀ t id now name, Attempt.Moves R (Call.inStore (Store.leaseRow t id now name))
  commit : ∀ t, Attempt.Moves R (Call.commit t)
  abandon : ∀ t, Attempt.Moves R (Call.inStore (Store.abandon t))

/-- Every change of a row respects the relation. -/
def RespectsRows (R : World → World → Prop) : Prop :=
  ∀ t id f, Store.KeepsId f → Attempt.Moves R (Call.inStore (Store.changeRow t id f))

namespace Respects

open Attempt

variable {R : World → World → Prop} {limits : Nat → Prop} {α β : Type}

theorem bind (h : Respects R limits) {m : Call α} {f : α → Call β} (hm : Moves R m)
    (hf : ∀ a, Moves R (f a)) : Moves R (m >>= f) :=
  hm.bind h.chains hf

theorem pure (h : Respects R limits) (a : α) : Moves R (Pure.pure a : Call α) :=
  Moves.pure h.chains a

theorem of_aside (h : Respects R limits) {m : Call α} (hm : Moves Aside m) : Moves R m :=
  fun w r w' hw => h.aside (hm w r w' hw)

/-- The answer of a call does not matter. -/
theorem drop (h : Respects R limits) {m : Call α} (hm : Moves R m) :
    Moves R (do let _ ← m : Call Unit) :=
  h.bind hm fun _ => h.pure _

theorem transact (h : Respects R limits) {body : TxId → Call α}
    (hbody : ∀ t, Moves R (body t)) : Moves R (Call.transact body) :=
  Call.moves_transact h.chains h.start hbody h.commit h.abandon

theorem inStore_bind (h : Respects R limits) {m : StoreCall α} {f : α → StoreCall β}
    (hm : Moves R (Call.inStore m)) (hf : ∀ a, Moves R (Call.inStore (f a))) :
    Moves R (Call.inStore (m >>= f)) := by
  intro w r w' hw
  obtain ⟨r₀, s', hs, rfl, rfl⟩ := Call.inStore_eq_some hw
  obtain ⟨a, s₁, hm', hf'⟩ | ⟨e, hm', -⟩ := bind_eq_some_iff.mp hs
  · -- Two calls in the store, seen as two calls in the world.
    have h₁ : Call.inStore m w = some (.ok a, { w with store := s₁ }) := by
      unfold Call.inStore
      exact mapError_eq_some_iff.mpr ⟨_, onPart_eq_some_iff.mpr ⟨_, hm', rfl⟩, rfl⟩
    have h₂ : Call.inStore (f a) { w with store := s₁ } =
        some (r₀.mapError .store, { w with store := s' }) := by
      unfold Call.inStore
      exact mapError_eq_some_iff.mpr ⟨_, onPart_eq_some_iff.mpr ⟨_, hf', rfl⟩, rfl⟩
    exact h.chains.trans (hm _ _ _ h₁) (hf a _ _ _ h₂)
  · have h₁ : Call.inStore m w = some (.error (.store e), { w with store := s' }) := by
      unfold Call.inStore
      exact mapError_eq_some_iff.mpr ⟨_, onPart_eq_some_iff.mpr ⟨_, hm', rfl⟩, rfl⟩
    exact hm _ _ _ h₁

/-! ## Signals -/

section signals
variable (h : Respects R limits) (hsend : ∀ m, Moves R (Call.trySend m)) (mode : PublishMode)
include h hsend

theorem emit (signal : Signal) : Moves R (mode.emit signal) := by
  cases mode with
  | inMemory => exact h.of_aside (Call.moves_pushQueue _)
  | transport =>
    have hall : Moves R (Call.send signal.toMessage) :=
      h.bind (hsend _) fun r => (Moves.ofExcept h.chains r).mapError _
    exact h.bind hall fun _ => h.pure _
  | outbox => exact h.pure _

theorem emitAll (signals : List Signal) : Moves R (mode.emitAll signals) := by
  induction signals with
  | nil => exact h.pure _
  | cons signal rest ih => exact h.bind ((h.emit hsend mode signal).mapError _) fun _ => ih

/-! ## Operations -/

theorem accept (hmode : ∀ t correlation now, Moves R (mode.stageAccept t correlation now))
    (correlation : Option String) : Moves R (mode.accept correlation) := by
  have hbody (t : TxId) :
      Moves R (do mode.stageAccept t correlation (← Call.now) : Call (OrderId × List Signal)) :=
    h.bind (h.of_aside Call.moves_now) fun now => hmode t correlation now
  refine h.bind (h.transact hbody) fun (id, signals) => ?_
  exact h.bind (h.emitAll hsend mode signals) fun _ => h.pure id

theorem readmit (hmode : ∀ t id now, Moves R <| mode.stageReadmit t id now) (id : OrderId) :
    Moves R <| mode.readmit id := by
  have hbody (t : TxId) :
      Moves R (do mode.stageReadmit t id (← Call.now) : Call (List Signal)) :=
    h.bind (h.of_aside Call.moves_now) fun now => hmode t id now
  exact h.bind (h.transact hbody) fun signals => h.emitAll hsend mode signals

theorem commitThenEmit (t : TxId) (signals : List Signal) :
    Moves R (mode.commitThenEmit t signals) :=
  h.bind (h.commit t) fun _ => h.emitAll hsend mode signals

end signals

theorem process (h : Respects R limits) (id : OrderId) {m : Nat} (hm : limits m) :
    Moves R (OrderFlow.process id m) :=
  h.transact fun t => h.bind (h.of_aside Call.moves_now) fun now => h.attempt t id now hm

/-! ## Polls of the outbox -/

theorem release (h : Respects R limits) (c : Claimant) (now : Instant) : Moves R (c.release now) :=
  h.transact fun t => h.endStaleLeases t _

theorem leaseAll (h : Respects R limits) (c : Claimant) (t : TxId) (now : Instant)
    (rows : List OutboxRow) : Moves R (Call.inStore (c.leaseAll t now rows)) := by
  induction rows with
  | nil =>
    intro w r w' hw
    cases hw
    exact h.chains.refl w
  | cons e rest ih => exact h.inStore_bind (h.leaseRow t e.id now c.name) fun _ => ih

/-- Claimed rows are leased in the transaction that has claimed them. -/
theorem leaseDue (h : Respects R limits) (c : Claimant) (t : TxId) (now : Instant) :
    Moves R (Call.inStore do
      let rows ← Store.claimDue t c.batchSize now
      c.leaseAll t now rows
      Pure.pure rows) := by
  refine h.inStore_bind (h.claimDue t c.batchSize now) fun rows => ?_
  refine h.inStore_bind (h.leaseAll c t now rows) fun _ => ?_
  intro w r w' hw
  cases hw
  exact h.chains.refl w

theorem lease (h : Respects R limits) (c : Claimant) (now : Instant) : Moves R (c.lease now) :=
  h.transact fun t => h.leaseDue c t now

theorem claim (h : Respects R limits) (c : Claimant) (now : Instant) : Moves R (c.claim now) :=
  h.bind (h.release c now) fun _ => h.bind (h.lease c now) fun _ => h.pure _

section rows
variable (h : Respects R limits) (hrows : RespectsRows R) {p : OutboxProcessor} (e : OutboxRow)
  (now : Instant)
include h hrows

/-- The body of a row's own transaction. -/
theorem settleIn (hp : limits p.maxRetries) (t : TxId) : Moves R (p.settleIn e now t) := by
  refine h.bind (h.attempt t e.order now hp) fun outcome => ?_
  refine h.bind ?_ fun _ => h.pure outcome
  rw [OutboxProcessor.settleRow_eq]
  exact hrows t e.id _ (p.settled_keepsId e now outcome)

theorem settle (hp : limits p.maxRetries) : Moves R (p.settle e now) :=
  h.transact (h.settleIn hrows e now hp)

theorem giveUp (cause : OperationError) : Moves R (OutboxProcessor.giveUp e now cause) :=
  h.transact fun t => hrows t e.id _ fun _ => rfl

theorem settleAll (hp : limits p.maxRetries) (rows : List OutboxRow) (report : ProcessingReport) :
    Moves R (p.settleAll now rows report) := by
  induction rows generalizing report with
  | nil => exact h.pure report
  | cons e rest ih =>
    refine h.bind (h.settle hrows e now hp).outcome fun r => ?_
    cases r with
    | ok outcome => exact ih _
    | error cause =>
      dsimp only
      split
      · exact h.bind (h.giveUp hrows e now cause).outcome fun _ => ih _
      · exact h.pure _

theorem pollOutbox (hp : limits p.maxRetries) : Moves R (p.poll now) :=
  h.bind (h.claim p.claimant now) fun _ => h.settleAll hrows now hp _ _

/-- Each verdict comes down to one change of the row. -/
theorem settleVerdict (verdict : ForwardingVerdict) :
    Moves R (Call.transact fun t => Call.inStore (verdict.settle t e.id now)) := by
  refine h.transact fun t => ?_
  cases verdict <;> exact hrows t e.id _ fun _ => rfl

theorem relayAll (hsend : ∀ m, Moves R (Call.trySend m)) (r : Forwarder) (rows : List OutboxRow)
    (report : ForwardingReport) : Moves R (r.relayAll now rows report) := by
  induction rows generalizing report with
  | nil => exact h.pure report
  | cons e rest ih =>
    refine h.bind (hsend _) fun sent => ?_
    refine h.bind (h.settleVerdict hrows e now _).outcome fun settled => ?_
    cases settled with
    | ok _ => exact ih _
    | error _ => exact h.pure _

theorem relay (hsend : ∀ m, Moves R (Call.trySend m)) (r : Forwarder) : Moves R (r.poll now) :=
  h.bind (h.claim r.claimant now) fun _ => h.relayAll hrows now hsend r _ _

end rows

/-! ## Polls of the transport -/

section consume
variable (h : Respects R limits) {c : MessageConsumer} (hc : limits c.maxRetries)
include h hc

theorem handle (hack : ∀ receipt, Moves R (Call.acknowledge receipt)) (d : Delivery)
    (id : OrderId) : Moves R (c.handle d id) := by
  refine h.bind (h.process id hc).outcome fun r => ?_
  split
  · exact h.bind (hack _).outcome fun _ => h.pure _
  · exact h.pure _
  · exact h.pure _

theorem consume (hreceive : ∀ waitMs, Moves R (Call.receive waitMs))
    (hack : ∀ receipt, Moves R (Call.acknowledge receipt)) : Moves R c.poll := by
  refine h.bind (hreceive c.waitMs) fun found => ?_
  cases found with
  | none => exact h.pure _
  | some d =>
    dsimp only
    split
    · exact h.handle hc hack d _
    · exact h.pure _

end consume

/-! ## Workers -/

theorem queueRound (h : Respects R limits) {q : QueueReader} (hq : limits q.maxRetries)
    (stop : StopRequest) (stats : Tally) : Moves R (q.round stop stats) := by
  refine h.bind (h.of_aside (Call.moves_popQueue _)) fun found => ?_
  cases found with
  | none => exact h.pure _
  | some id =>
    refine h.bind (h.process id hq).outcome fun result => ?_
    dsimp only
    split
    · refine h.bind (h.of_aside (Call.moves_sleep stop q.retryDelayMs)) fun stopped => ?_
      exact h.bind (h.of_aside (Call.moves_pushQueue id)) fun _ => h.pure _
    · exact h.pure _

theorem sleep (h : Respects R limits) (stop : StopRequest) (ms : Nat) : Moves R (stop.sleep ms) :=
  h.of_aside (Call.moves_sleep stop ms)

end Respects

section actions
variable {R : World → World → Prop} {limits : Nat → Prop} {modes : PublishMode → Prop}
  {forwards : Prop}

/-- **Every action respects what its pieces respect.** -/
theorem Action.moves (h : Respects R limits)
    (haccept : ∀ mode, modes mode → ∀ t correlation now,
      Attempt.Moves R (mode.stageAccept t correlation now))
    (hagain : ∀ mode, modes mode → ∀ t id now, Attempt.Moves R <| mode.stageReadmit t id now)
    (hpoll : ∀ p : OutboxProcessor, limits p.maxRetries → ∀ now,
      Attempt.Moves R (p.poll now))
    (hrelay : forwards → ∀ (r : Forwarder) now, Attempt.Moves R (r.poll now))
    (hsend : ∀ m, Attempt.Moves R (Call.trySend m))
    (hconsume : ∀ c : MessageConsumer, limits c.maxRetries → Attempt.Moves R c.poll)
    {a : Action} (ha : a.Within modes forwards) (hlimit : ∀ m ∈ a.maxRetries?, limits m)
    {w w' : World} {r : Except OperationError Unit}
    (hothers : ∀ e, a = .others e → R w (w.inside e)) (hcall : a.call w = some (r, w')) :
    R w w' := by
  have hmoves (hm : Attempt.Moves R a.call) : R w w' := hm w r w' hcall
  cases a with
  | accept mode correlation =>
    exact hmoves (h.drop (h.accept hsend mode (haccept mode ha) correlation))
  | readmit mode id => exact hmoves (h.readmit hsend mode (hagain mode ha) id)
  | process id maxRetries => exact hmoves (h.drop (h.process id (hlimit _ rfl)))
  | pollOutbox p now => exact hmoves (h.drop (hpoll p (hlimit _ rfl) now))
  | relay r now => exact hmoves (h.drop (hrelay ha r now))
  | consume c => exact hmoves (h.drop (hconsume c (hlimit _ rfl)))
  | work worker forMs budget =>
    refine hmoves (h.drop (Round.moves_run h.chains (fun stop stats => ?_) forMs budget))
    cases worker with
    | queue q => exact h.queueRound (hlimit _ rfl) stop stats
    | outbox p intervalMs =>
      exact Round.moves_pollThenSleep h.chains h.sleep (hpoll p (hlimit _ rfl)) _ stop intervalMs
    | relay r intervalMs =>
      exact Round.moves_pollThenSleep h.chains h.sleep (hrelay ha r) _ stop intervalMs
    | transport c =>
      exact Round.moves_transportRound h.chains h.sleep (hconsume c (hlimit _ rfl)) stop stats
  | start => exact hmoves (h.drop h.start)
  | stageAccept mode t correlation now =>
    exact hmoves (h.drop (haccept mode ha t correlation now))
  | stageReadmit mode t id now => exact hmoves (h.drop (hagain mode ha t id now))
  | stageAttempt t id now maxRetries => exact hmoves (h.drop (h.attempt t id now (hlimit _ rfl)))
  | commit mode t signals => exact hmoves (h.commitThenEmit hsend mode t signals)
  | abandon t => exact hmoves (h.abandon t)
  | others e =>
    cases hcall
    exact hothers e rfl

/-- A relation that does not look at messages is respected by all calls on the
    transport. -/
theorem Action.moves_elsewhere (h : Respects R limits) (helse : ∀ {w w'}, Elsewhere w w' → R w w')
    (haccept : ∀ mode, modes mode → ∀ t correlation now,
      Attempt.Moves R (mode.stageAccept t correlation now))
    (hagain : ∀ mode, modes mode → ∀ t id now, Attempt.Moves R <| mode.stageReadmit t id now)
    (hpoll : ∀ p : OutboxProcessor, limits p.maxRetries → ∀ now,
      Attempt.Moves R (p.poll now))
    (hrelay : forwards → ∀ (r : Forwarder) now, Attempt.Moves R (r.poll now))
    {a : Action} (ha : a.Within modes forwards) (hlimit : ∀ m ∈ a.maxRetries?, limits m) :
    Attempt.Moves R a.call := by
  have hlift {α : Type} {m : Call α} (hm : Attempt.Moves Elsewhere m) : Attempt.Moves R m :=
    fun w r w' hw => helse (hm w r w' hw)
  intro w r w' hcall
  refine Action.moves h haccept hagain hpoll hrelay (fun m => hlift (Call.moves_trySend m)) ?_ ha
    hlimit (fun e _ => helse ⟨⟨_, rfl⟩, rfl, Nat.le_refl _⟩) hcall
  intro c hc
  exact h.consume hc (fun waitMs => hlift (Call.moves_receive waitMs))
    fun receipt => hlift (Call.moves_acknowledge receipt)

end actions

end OrderFlow
