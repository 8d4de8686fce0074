import OrderFlow.Proofs.Run.Mail
import OrderFlow.Proofs.Run.Whole

/-! # Turns

    A pipeline that does one thing after the other: operations, rounds of the
    queue's worker, polls of the transport, and the transactions of a poll of
    the outbox, which takes the rows that it has claimed one at a time.  The
    store is committed between two turns and at no other time, and outages may
    come with any of them.

    Every turn says what was done and, where it matters, how that ended, so a
    run comes with the list of its deeds.  Operations, polls and whole runs of
    workers unfold into such turns (`Action.unfolds`). -/

namespace OrderFlow

open World

/-! ## Deeds -/

/-- What is done in one turn. -/
inductive Deed where
  /-- Accepts an order, and how that ends. -/
  | accept (mode : PublishMode) (r : Except OperationError OrderId)
  /-- Gives an order another chance, and how that ends. -/
  | readmit (mode : PublishMode) (id : OrderId) (r : Except OperationError Unit)
  /-- Makes an attempt on an order. -/
  | process (id : OrderId) (maxRetries : Nat)
  /-- Takes an order from the queue in memory. -/
  | round (q : QueueReader)
  /-- Frees stale rows. -/
  | release
  /-- Claims rows. -/
  | lease
  /-- Processes the order of a claimed row. -/
  | settle (p : OutboxProcessor)
  /-- Sends a claimed row. -/
  | forward (r : Forwarder)
  /-- Takes a message from the transport. -/
  | consume (c : MessageConsumer)
  /-- Time passes, or somebody sets the clock. -/
  | wait
  /-- The surroundings change. -/
  | others

namespace Deed

/-- The order that has come up to be processed: it was accepted or readmitted,
    and that is committed. -/
def raised : Deed → Option OrderId
  | .accept _ (.ok id) | .accept _ (.error (.unannounced id _)) => some id
  | Deed.readmit _ id (.ok ()) => some id
  | Deed.readmit _ _ (.error (.unannounced id _)) => some id
  | _ => none

/-- An order has come up and could not be made known. -/
def IsUntold : Deed → Prop
  | .accept _ (.error (.unannounced _ _)) | Deed.readmit _ _ (.error (.unannounced _ _)) => True
  | _ => False

/-- The deed announces orders in such modes, if it does at all. -/
def Announces (modes : PublishMode → Prop) : Deed → Prop
  | .accept mode _ | Deed.readmit mode _ _ => modes mode
  | _ => True

/-- A readmission that has failed before its commit. -/
theorem raised_of_known {mode : PublishMode} {id : OrderId} {e : OperationError}
    (h : ∀ order cause, e ≠ .unannounced order cause) :
    ( Deed.readmit mode id (.error e)).raised = none := by
  cases e with
  | unannounced order cause => exact absurd rfl (h order cause)
  | _ => rfl

end Deed

/-- **One turn**, with the rows that the poll under way has still to see to.
    Without any there is no poll under way, and a poll may drop the rows that
    are left at any time. -/
inductive Turn : World × List OutboxRow → Deed → World × List OutboxRow → Prop where
  | accept {w w' : World} {claimed : List OutboxRow} {mode : PublishMode}
    {correlation : Option String} {r : Except OperationError OrderId}
    (h : mode.accept correlation w = some (r, w')) :
    Turn (w, claimed) (.accept mode r) (w', claimed)
  | readmit {w w' : World} {claimed : List OutboxRow} {mode : PublishMode} {id : OrderId}
    {r : Except OperationError Unit} (h : mode.readmit id w = some (r, w')) :
    Turn (w, claimed) (Deed.readmit mode id r) (w', claimed)
  | process {w w' : World} {claimed : List OutboxRow} {id : OrderId} {maxRetries : Nat}
    {r : Except OperationError Outcome} (h : process id maxRetries w = some (r, w')) :
    Turn (w, claimed) (.process id maxRetries) (w', claimed)
  | round {w w' : World} {claimed : List OutboxRow} {q : QueueReader} {stop : StopRequest}
    {stats : Tally} {r : Except OperationError (Tally × Bool)}
    (h : q.round stop stats w = some (r, w')) : Turn (w, claimed) (.round q) (w', claimed)
  | release {w w' : World} {c : Claimant} {now : Instant} {r : Except OperationError Nat}
    (h : c.release now w = some (r, w')) : Turn (w, []) .release (w', [])
  | lease {w w' : World} {c : Claimant} {now : Instant} {found : List OutboxRow}
    (h : c.lease now w = some (.ok found, w')) : Turn (w, []) .lease (w', found)
  | noLease {w w' : World} {c : Claimant} {now : Instant} {cause : OperationError}
    (h : c.lease now w = some (.error cause, w')) : Turn (w, []) .lease (w', [])
  | settle {w w' : World} {p : OutboxProcessor} {e : OutboxRow} {rest left : List OutboxRow}
    {now : Instant} {r : Except OperationError Outcome} (hleft : left = rest ∨ left = [])
    (h : p.settle e now w = some (r, w')) : Turn (w, e :: rest) (.settle p) (w', left)
  /-- The order of a claimed row cannot be processed. -/
  | giveUp {w w₁ w' : World} {p : OutboxProcessor} {e : OutboxRow} {rest : List OutboxRow}
    {now : Instant} {cause : OperationError} {r : Except OperationError Unit}
    (hlasting : cause.isLasting = true) (h : p.settle e now w = some (.error cause, w₁))
    (hgive : OutboxProcessor.giveUp e now cause w₁ = some (r, w')) :
    Turn (w, e :: rest) (.settle p) (w', rest)
  /-- A claimed row is sent and settled, in this order. -/
  | forward {w w₁ w' : World} {r : Forwarder} {e : OutboxRow} {rest left : List OutboxRow}
    {now : Instant} {sent : Except TransportError Uuid} {settled : Except OperationError Unit}
    (hleft : left = rest ∨ left = []) (hsend : Call.trySend e.toMessage w = some (.ok sent, w₁))
    (h : (Call.transact fun t => Call.inStore ((r.verdict e now sent).settle t e.id now)) w₁ =
      some (settled, w')) : Turn (w, e :: rest) (.forward r) (w', left)
  | consume {w w' : World} {claimed : List OutboxRow} {c : MessageConsumer}
    {r : Except OperationError Reception} (h : c.poll w = some (r, w')) :
    Turn (w, claimed) (.consume c) (w', claimed)
  | wait {w : World} {claimed : List OutboxRow} (clock : Clock) :
    Turn (w, claimed) .wait ({ w with clock := clock }, claimed)
  /-- Messages and the queue in memory are left alone. -/
  | others {w : World} {claimed : List OutboxRow} {e : Surroundings}
    (hmessages : e.transport.messages = w.transport.messages)
    (hletters : e.transport.deadLetters = w.transport.deadLetters)
    (hqueue : e.queue = w.queue) : Turn (w, claimed) .others (w.inside e, claimed)

/-- **Any number of turns**, and what was done in them, oldest first. -/
inductive Turns (c : World × List OutboxRow) : List Deed → World × List OutboxRow → Prop where
  | refl : Turns c [] c
  | tail {deeds : List Deed} {d : Deed} {c₁ c₂ : World × List OutboxRow} (h : Turns c deeds c₁)
    (hturn : Turn c₁ d c₂) : Turns c (deeds ++ [d]) c₂

section turns
variable {c c₁ c₂ c' : World × List OutboxRow} {deeds deeds' : List Deed} {d : Deed}

theorem Turns.single (h : Turn c d c') : Turns c [d] c' :=
  .tail .refl h

theorem Turns.trans (h : Turns c deeds c₁) (h' : Turns c₁ deeds' c₂) :
    Turns c (deeds ++ deeds') c₂ := by
  induction h' with
  | refl => simpa using h
  | tail _ hturn ih =>
    rw [← List.append_assoc]
    exact ih.tail hturn

/-! ## What turns have in common with other steps -/

/-- Seen from the mail, a turn is a sequence of steps. -/
theorem Turn.posts (h : Turn c d c') : Posts c.1 c'.1 := by
  have hposts := Posts.respects
  have hrows := Posts.respectsRows
  cases h with
  | @accept _ _ _ mode _ _ h =>
    exact hposts.accept Posts.send mode (Posts.stageAccept mode) _ _ _ _ h
  | readmit h => exact hposts.readmit Posts.send _ (Posts.stageReadmit _) _ _ _ _ h
  | process h => exact hposts.process _ trivial _ _ _ h
  | @round _ _ _ q stop stats _ h => exact hposts.queueRound trivial stop stats _ _ _ h
  | release h => exact hposts.release _ _ _ _ _ h
  | lease h | noLease h => exact hposts.lease _ _ _ _ _ h
  | settle _ h => exact hposts.settle hrows _ _ trivial _ _ _ h
  | giveUp _ h hgive =>
    exact Posts.chains.trans (hposts.settle hrows _ _ trivial _ _ _ h)
      (hposts.giveUp hrows _ _ _ _ _ _ hgive)
  | forward _ hsend h =>
    exact Posts.chains.trans (Posts.send _ _ _ _ hsend) (hposts.settleVerdict hrows _ _ _ _ _ _ h)
  | consume h => exact Posts.consume _ _ _ _ h
  | wait clock => exact Posts.elsewhere ⟨⟨_, rfl⟩, rfl, Nat.le_refl _⟩ rfl rfl
  | others hmessages hletters _ =>
    exact Posts.elsewhere ⟨⟨_, rfl⟩, rfl, Nat.le_refl _⟩ hmessages hletters

theorem Turns.posts (h : Turns c deeds c') : Posts c.1 c'.1 := by
  induction h with
  | refl => exact Posts.chains.refl _
  | tail _ hturn ih => exact Posts.chains.trans ih hturn.posts

theorem Posts.orderly {w w' : World} (h : Posts w w') (hw : w.store.Orderly) :
    w'.store.Orderly := by
  obtain ⟨j', mail', hsteps⟩ := h {} {}
  exact Effects.orderly (Steps.effects (MailSteps.steps hsteps) hw) hw

theorem Posts.ids_le {w w' : World} (h : Posts w w') (hw : w.store.Orderly) :
    w.ids.next ≤ w'.ids.next := by
  obtain ⟨j', mail', hsteps⟩ := h {} {}
  exact Effects.ids_le (Steps.effects (MailSteps.steps hsteps) hw)

theorem Turns.orderly (h : Turns c deeds c') (hc : c.1.store.Orderly) : c'.1.store.Orderly :=
  h.posts.orderly hc

/-- **The orders that there are stay** for the rest of a run. -/
theorem Turns.keeps_orders (h : Turns c deeds c') (hc : c.1.store.Orderly) {id : OrderId}
    (hid : (c.1.store.orders.find? id).isSome) : (c'.1.store.orders.find? id).isSome := by
  obtain ⟨j', mail', hsteps⟩ := h.posts {} {}
  exact Effects.keeps_orders (Steps.effects (MailSteps.steps hsteps) hc) hc hid

/-- **Induction over a run** of turns in which only such things are done.  What
    every turn keeps, as long as ids are fresh and the store is in order, holds
    at the end. -/
theorem Turns.keep {kinds : Deed → Prop} {P : World × List OutboxRow → List Deed → Prop}
    (h : Turns c deeds c') (hkinds : ∀ d ∈ deeds, kinds d)
    (hstep : ∀ {c₁ c₂ deeds d}, c₁.1.store.Orderly → c₂.1.ids.Lasts → kinds d →
      Turn c₁ d c₂ → P c₁ deeds → P c₂ (deeds ++ [d]))
    (hc : c.1.store.Orderly) (hids : c'.1.ids.Lasts) (hP : P c []) : P c' deeds := by
  induction h with
  | refl => exact hP
  | tail hbefore hturn ih =>
    have horderly := hbefore.orderly hc
    have hlasts := hids.mono (hturn.posts.ids_le horderly)
    refine hstep horderly hids (hkinds _ (by simp)) hturn (ih (fun d hd => ?_) hlasts)
    exact hkinds d (List.mem_append_left _ hd)

end turns

/-! ## Whole actions unfold into turns -/

/-- **What happens between the two worlds unfolds** into turns in which such
    things are done. -/
def Unfolds (kinds : Deed → Prop) (w w' : World) : Prop :=
  ∃ deeds, Turns (w, []) deeds (w', []) ∧ ∀ d ∈ deeds, kinds d

namespace Unfolds

open Attempt

variable {kinds : Deed → Prop} {w w' : World}

theorem chains : Chains (Unfolds kinds) where
  refl w := ⟨[], .refl, by simp⟩
  trans := by
    intro w₁ w₂ w₃ h₁ h₂
    obtain ⟨deeds, hturns, hkinds⟩ := h₁
    obtain ⟨deeds', hturns', hkinds'⟩ := h₂
    refine ⟨deeds ++ deeds', hturns.trans hturns', fun d hd => ?_⟩
    rcases List.mem_append.mp hd with hd | hd
    · exact hkinds d hd
    · exact hkinds' d hd

theorem of_turn {d : Deed} (h : Turn (w, []) d (w', [])) (hd : kinds d) : Unfolds kinds w w' :=
  ⟨[d], .single h, by simpa using hd⟩

theorem sleep (hwait : kinds .wait) (stop : StopRequest) (ms : Nat) :
    Moves (Unfolds kinds) (stop.sleep ms) := by
  intro w r w' h
  unfold StopRequest.sleep at h
  split at h
  · cases h
    exact chains.refl w
  · split at h
    · cases h
      exact of_turn (.wait _) hwait
    · cases h
      exact of_turn (.wait _) hwait

/-- The rows that were claimed are settled one after the other. -/
theorem settleAll {p : OutboxProcessor} {now : Instant} {rows : List OutboxRow}
    {report : ProcessingReport} {r : Except OperationError ProcessingReport}
    (h : p.settleAll now rows report w = some (r, w')) :
    ∃ deeds, Turns (w, rows) deeds (w', []) ∧ ∀ d ∈ deeds, d = .settle p := by
  induction rows generalizing w report with
  | nil =>
    cases h
    exact ⟨[], .refl, by simp⟩
  | cons e rest ih =>
    -- One row, and then those that the poll still sees to.
    have hmore {w₁ : World} (hfirst : Turn (w, e :: rest) (.settle p) (w₁, rest))
        (hrest : ∃ deeds, Turns (w₁, rest) deeds (w', []) ∧ ∀ d ∈ deeds, d = .settle p) :
        ∃ deeds, Turns (w, e :: rest) deeds (w', []) ∧ ∀ d ∈ deeds, d = .settle p := by
      obtain ⟨deeds, hturns, hdeeds⟩ := hrest
      exact ⟨_, (Turns.single hfirst).trans hturns, by simpa using hdeeds⟩
    obtain ⟨settled, w₁, hsettle, hrest⟩ := outcome_bind_eq_some h
    rcases settled with cause | outcome
    · dsimp only at hrest
      split at hrest
      · next hlasting =>
        -- The attempt will never do better, and the row is given up on at once.
        obtain ⟨given, w₂, hgive, hrest⟩ := outcome_bind_eq_some hrest
        exact hmore (.giveUp hlasting hsettle hgive) (ih hrest)
      · -- The poll ends here and drops the rows that are left.
        cases hrest
        exact ⟨_, .single (.settle (Or.inr rfl) hsettle), by simp⟩
    · exact hmore (.settle (Or.inl rfl) hsettle) (ih hrest)

/-- The rows that were claimed are sent one after the other. -/
theorem relayAll {f : Forwarder} {now : Instant} {rows : List OutboxRow}
    {report : ForwardingReport} {r : Except OperationError ForwardingReport}
    (h : f.relayAll now rows report w = some (r, w')) :
    ∃ deeds, Turns (w, rows) deeds (w', []) ∧ ∀ d ∈ deeds, d = .forward f := by
  induction rows generalizing w report with
  | nil =>
    cases h
    exact ⟨[], .refl, by simp⟩
  | cons e rest ih =>
    obtain ⟨sent, w₁, settled, w₂, hsend, hsettle, ⟨-, report', hrest⟩ | ⟨-, rfl⟩⟩ :=
      Forwarder.relayAll_cons h
    · obtain ⟨deeds, hturns, hdeeds⟩ := ih hrest
      exact ⟨_, (Turns.single (.forward (Or.inl rfl) hsend hsettle)).trans hturns,
        by simpa using hdeeds⟩
    · exact ⟨_, .single (.forward (Or.inr rfl) hsend hsettle), by simp⟩

/-- A poll of the outbox: what it claims, it sees to. -/
theorem poll {α : Type} {c : Claimant} {now : Instant} {body : Nat × List OutboxRow → Call α}
    (hrelease : kinds .release) (hlease : kinds .lease)
    (hbody : ∀ {w w' : World} {released : Nat} {rows : List OutboxRow} {r : Except OperationError α},
      body (released, rows) w = some (r, w') →
        ∃ deeds, Turns (w, rows) deeds (w', []) ∧ ∀ d ∈ deeds, kinds d) :
    Moves (Unfolds kinds) (c.claim now >>= body) := by
  intro w r w' h
  -- A claim is two turns, or one if stale leases cannot be ended.
  have hclaimed {found : Except OperationError (Nat × List OutboxRow)} {w₁ : World}
      (hclaim : c.claim now w = some (found, w₁)) :
      (∃ released rows, found = .ok (released, rows) ∧
        Turns (w, []) [.release, .lease] (w₁, rows)) ∨
      (∃ cause, found = .error cause) ∧ Unfolds kinds w w₁ := by
    rcases bind_eq_some_iff.mp hclaim with
      ⟨released, w₂, hfreed, hrest⟩ | ⟨cause, hfreed, rfl⟩
    · have hfirst : Turn (w, []) .release (w₂, []) := .release hfreed
      rcases bind_eq_some_iff.mp hrest with ⟨rows, w₃, hleased, hpure⟩ | ⟨cause, hleased, rfl⟩
      · cases hpure
        exact Or.inl ⟨released, rows, rfl, (Turns.single hfirst).tail (.lease hleased)⟩
      · refine Or.inr ⟨⟨cause, rfl⟩, [.release, .lease], ?_, by simp [hrelease, hlease]⟩
        exact (Turns.single hfirst).tail (.noLease hleased)
    · exact Or.inr ⟨⟨cause, rfl⟩, of_turn (.release hfreed) hrelease⟩
  rcases bind_eq_some_iff.mp h with ⟨⟨released, rows⟩, w₁, hclaim, hrest⟩ | ⟨cause, hclaim, rfl⟩
  · rcases hclaimed hclaim with ⟨_, _, hfound, hturns⟩ | ⟨⟨_, hfound⟩, -⟩
    · cases hfound
      obtain ⟨deeds, hturns', hkinds⟩ := hbody hrest
      exact ⟨_, hturns.trans hturns', by simpa [hrelease, hlease] using hkinds⟩
    · cases hfound
  · rcases hclaimed hclaim with ⟨_, _, hfound, -⟩ | ⟨-, hunfolds⟩
    · cases hfound
    · exact hunfolds

end Unfolds

/-- The deeds that a worker's run is made of. -/
def Worker.MayDo : Worker → Deed → Prop
  | .queue q, .round q' => q' = q
  | .outbox p _, .settle p' => p' = p
  | .relay r _, .forward r' => r' = r
  | .outbox _ _, .release | .outbox _ _, .lease | .relay _ _, .release | .relay _ _, .lease => True
  | .transport c, .consume c' => c' = c
  | _, .wait => True
  | _, _ => False

/-- The deeds that an action is made of, if it leaves open transactions alone. -/
def Action.MayDo : Action → Deed → Prop
  | .accept mode _, .accept mode' _ => mode' = mode
  | Action.readmit mode id, Deed.readmit mode' id' _ => mode' = mode ∧ id' = id
  | .process id maxRetries, .process id' maxRetries' => id' = id ∧ maxRetries' = maxRetries
  | .pollOutbox p _, .settle p' => p' = p
  | .relay r _, .forward r' => r' = r
  | .pollOutbox _ _, .release | .pollOutbox _ _, .lease => True
  | .relay _ _, .release | .relay _ _, .lease => True
  | .consume c, .consume c' => c' = c
  | .work worker _ _, d => worker.MayDo d
  | .others _, .others => True
  | _, _ => False

/-- The action uses transactions of its own, and if others act, they leave
    messages and the queue in memory alone. -/
def Action.Alone (a : Action) (w : World) : Prop :=
  match a with
  | .start | .stageAccept _ _ _ _ | Action.stageReadmit _ _ _ _ | .stageAttempt _ _ _ _
  | .commit _ _ _ | .abandon _ => False
  | .others e => e.transport.messages = w.transport.messages ∧
      e.transport.deadLetters = w.transport.deadLetters ∧ e.queue = w.queue
  | _ => True

section actions
variable {kinds : Deed → Prop} {w w' : World}

open Attempt

theorem OutboxProcessor.unfolds (p : OutboxProcessor) (now : Instant) (hrelease : kinds .release)
    (hlease : kinds .lease) (hsettle : kinds (.settle p)) : Moves (Unfolds kinds) (p.poll now) := by
  refine Unfolds.poll hrelease hlease fun h => ?_
  obtain ⟨deeds, hturns, hdeeds⟩ := Unfolds.settleAll h
  exact ⟨deeds, hturns, fun d hd => hdeeds d hd ▸ hsettle⟩

theorem Forwarder.unfolds (r : Forwarder) (now : Instant) (hrelease : kinds .release)
    (hlease : kinds .lease) (hforward : kinds (.forward r)) :
    Moves (Unfolds kinds) (r.poll now) := by
  refine Unfolds.poll hrelease hlease fun h => ?_
  obtain ⟨deeds, hturns, hdeeds⟩ := Unfolds.relayAll h
  exact ⟨deeds, hturns, fun d hd => hdeeds d hd ▸ hforward⟩

theorem MessageConsumer.unfolds (c : MessageConsumer) (hconsume : kinds (.consume c)) :
    Moves (Unfolds kinds) c.poll :=
  fun _ _ _ h => Unfolds.of_turn (.consume h) hconsume

theorem Worker.unfolds (worker : Worker) (hkinds : ∀ d, worker.MayDo d → kinds d)
    (forMs budget : Nat) : Moves (Unfolds kinds) (worker.round.run forMs budget) := by
  have hsleep (stop : StopRequest) (ms : Nat) : Moves (Unfolds kinds) (stop.sleep ms) :=
    Unfolds.sleep (hkinds _ (by cases worker <;> trivial)) stop ms
  refine Round.moves_run Unfolds.chains (fun stop stats => ?_) forMs budget
  cases worker with
  | queue q => exact fun _ _ _ h => Unfolds.of_turn (.round h) (hkinds _ rfl)
  | outbox p intervalMs =>
    refine Round.moves_pollThenSleep Unfolds.chains hsleep (fun now => ?_) _ stop intervalMs
    exact p.unfolds now (hkinds _ trivial) (hkinds _ trivial) (hkinds _ rfl)
  | relay r intervalMs =>
    refine Round.moves_pollThenSleep Unfolds.chains hsleep (fun now => ?_) _ stop intervalMs
    exact r.unfolds now (hkinds _ trivial) (hkinds _ trivial) (hkinds _ rfl)
  | transport c =>
    exact Round.moves_transportRound Unfolds.chains hsleep (c.unfolds (hkinds _ rfl)) stop stats

/-- **Every action unfolds into turns**, if it leaves open transactions alone. -/
theorem Action.unfolds {a : Action} {r : Except OperationError Unit} (ha : a.Alone w)
    (hkinds : ∀ d, a.MayDo d → kinds d) (h : a.call w = some (r, w')) : Unfolds kinds w w' := by
  -- The answer of the call behind the action is dropped.
  have hdrop {α : Type} {m : Call α} (hm : Moves (Unfolds kinds) m)
      (h : (do let _ ← m : Call Unit) w = some (r, w')) : Unfolds kinds w w' :=
    hm.bind Unfolds.chains (fun _ => Moves.pure Unfolds.chains _) w r w' h
  cases a with
  | accept mode correlation =>
    exact hdrop (fun _ _ _ h => Unfolds.of_turn (.accept h) (hkinds _ rfl)) h
  | readmit mode id =>
    have hturn : Turn (w, []) _ (w', []) := Turn.readmit h
    exact Unfolds.of_turn hturn (hkinds _ ⟨rfl, rfl⟩)
  | process id maxRetries =>
    exact hdrop (fun _ _ _ h => Unfolds.of_turn (.process h) (hkinds _ ⟨rfl, rfl⟩)) h
  | pollOutbox p now =>
    exact hdrop (p.unfolds now (hkinds _ trivial) (hkinds _ trivial) (hkinds _ rfl)) h
  | relay r now =>
    exact hdrop (r.unfolds now (hkinds _ trivial) (hkinds _ trivial) (hkinds _ rfl)) h
  | consume c => exact hdrop (c.unfolds (hkinds _ rfl)) h
  | work worker forMs budget => exact hdrop (worker.unfolds hkinds forMs budget) h
  | others e =>
    cases h
    obtain ⟨hmessages, hletters, hqueue⟩ := ha
    exact Unfolds.of_turn (.others hmessages hletters hqueue) (hkinds _ trivial)
  | start | stageAccept | stageReadmit | stageAttempt | commit | abandon => exact ha.elim

/-- Any number of such actions. -/
theorem World.play_unfolds {actions : List Action}
    (hactions : ∀ a ∈ actions, (∀ w, a.Alone w) ∧ ∀ d, a.MayDo d → kinds d)
    (h : w.play actions = some w') : Unfolds kinds w w' := by
  induction actions generalizing w with
  | nil =>
    cases h
    exact Unfolds.chains.refl _
  | cons a rest ih =>
    obtain ⟨r, w₁, hcall, hrest⟩ := World.play_cons h
    obtain ⟨halone, hkinds⟩ := hactions a List.mem_cons_self
    refine Unfolds.chains.trans (Action.unfolds (halone w) hkinds hcall) ?_
    exact ih (fun a ha => hactions a (List.mem_cons_of_mem _ ha)) hrest

end actions

end OrderFlow
