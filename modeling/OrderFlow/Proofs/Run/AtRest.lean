import OrderFlow.Proofs.Run.Served
import OrderFlow.Proofs.Sole

/-! # Turns that can be made

    Between two turns the same transactions are open, so in a run from a fresh
    pipeline none is.  Whoever works next has the store to himself, and where
    nobody interferes none of his calls waits: a turn that is wanted can be
    made.

    Ids are drawn for messages and receipts, and in a turn that announces
    nothing for nothing else (`Turn.ids_next`). -/

namespace OrderFlow

open World Attempt

/-! ## Open transactions -/

section opened
variable {w w' : World} {c c' : World × List OutboxRow} {d : Deed} {deeds : List Deed}

theorem Emits.opened {mode : PublishMode} {id : OrderId} {correlation : Option String}
    {r : Except OperationError Unit} (h : Emits mode id correlation w r w') :
    w'.store.opened = w.store.opened := by
  cases h with
  | noted _ | queued _ => rfl
  | sent _ h | untold _ h => exact (Call.moves_trySend _ _ _ _ h).opened

theorem MessageConsumer.Polls.opened {consumer : MessageConsumer} (h : consumer.Polls w w')
    (hw : w.store.Orderly) (u : TxId) :
    w'.store.opened.find? u = w.store.opened.find? u := by
  cases h with
  | refused hreceive | idle hreceive | malformed hreceive _ =>
    rw [(Call.moves_receive _ _ _ _ hreceive).opened]
  | attempted hreceive _ hprocess _ =>
    have helse := Call.moves_receive _ _ _ _ hreceive
    rw [(process_ended (helse.orderly hw) hprocess).opened, helse.opened]
  | acknowledged hreceive _ hprocess hack =>
    have helse := Call.moves_receive _ _ _ _ hreceive
    rw [(Call.moves_acknowledge _ _ _ _ hack).opened,
      (process_ended (helse.orderly hw) hprocess).opened, helse.opened]

/-- **No turn leaves a transaction open**, or closes one that it has not begun. -/
theorem Turn.opened (h : Turn c d c') (hc : c.1.store.Orderly) (u : TxId) :
    c'.1.store.opened.find? u = c.1.store.opened.find? u := by
  cases h with
  | accept h =>
    rcases PublishMode.accept_ends hc h with
      ⟨-, -, _, hwrote⟩ | ⟨_, _, _, _, _, -, -, hwrote, -, -, hemits, -⟩
    · exact hwrote.opened u
    · show _ = _
      rw [hemits.opened, hwrote.opened]
  | readmit h =>
    rcases PublishMode.readmit_ends hc h with
      ⟨_, _, -, -, hwrote⟩ | ⟨_, _, _, _, -, -, -, hwrote, -, hemits⟩
    · exact hwrote.opened u
    · show _ = _
      rw [hemits.opened, hwrote.opened]
  | process h => exact (process_ended hc h).opened u
  | round h =>
    obtain ⟨_, _, _, -, htakes⟩ := QueueReader.round_takes h
    cases htakes with
    | nothing _ => rfl
    | took _ hprocess => exact (process_ended (by exact hc) hprocess).opened u
  | release h => exact (Claimant.release_ended hc h).opened u
  | lease h | noLease h => exact (Claimant.lease_ended hc h).opened u
  | settle _ h => exact (OutboxProcessor.settle_ended hc h).opened u
  | @giveUp _ _ _ _ _ _ _ cause _ _ h hgive =>
    have hfirst := OutboxProcessor.settle_ended hc h
    have hlast := ForwardingVerdict.settle_ended (v := .givenUp cause.message) hfirst.orderly hgive
    show _ = _
    rw [hlast.opened, hfirst.opened]
  | forward _ hsend h =>
    have helse := Call.moves_trySend _ _ _ _ hsend
    show _ = _
    rw [(ForwardingVerdict.settle_ended (helse.orderly hc) h).opened, helse.opened]
  | consume h => exact (MessageConsumer.poll_polls h).opened hc u
  | wait _ | others _ _ _ => rfl

theorem Turns.opened (h : Turns c deeds c') (hc : c.1.store.Orderly) (u : TxId) :
    c'.1.store.opened.find? u = c.1.store.opened.find? u := by
  induction h with
  | refl => rfl
  | tail hbefore hturn ih => rw [hturn.opened (hbefore.orderly hc), ih]

end opened

/-! ## Ids -/

/-- No id is drawn. -/
def World.SameIds (w w' : World) : Prop :=
  w'.ids = w.ids

theorem sameIds_chains : Chains World.SameIds where
  refl _ := rfl
  trans h₁ h₂ := h₂.trans h₁

namespace Call

variable {t : TxId} {α : Type}

theorem sameIds_inStore (m : StoreCall α) : Moves SameIds (inStore m) :=
  fun _ _ _ h => inStore_ids h

theorem sameIds_transact {body : TxId → Call α} (hbody : ∀ t, Moves SameIds (body t)) :
    Moves SameIds (transact body) := by
  have hnext : Moves SameIds (Attempt.modify World.nextDisturbance : Call Unit) :=
    Moves.modify nextDisturbance_ids
  exact moves_transact sameIds_chains (hnext.bind sameIds_chains fun _ => sameIds_inStore _) hbody
    (fun _ => hnext.bind sameIds_chains fun _ => sameIds_inStore _) fun _ => sameIds_inStore _

theorem attempting_sameIds : Attempting t SameIds where
  chains := sameIds_chains
  hold _ := sameIds_inStore _
  write _ := sameIds_inStore _
  letter _ := sameIds_inStore _
  call _ := by
    intro w r w' h
    cases h
    rfl

end Call

theorem sameIds_process (id : OrderId) (m : Nat) : Moves SameIds (process id m) :=
  Call.sameIds_transact fun _ => (Moves.read sameIds_chains _).bind sameIds_chains fun _ =>
    Call.attempting_sameIds.processIn id

theorem OutboxProcessor.sameIds_settle (p : OutboxProcessor) (e : OutboxRow) (now : Instant) :
    Moves SameIds (p.settle e now) :=
  Call.sameIds_transact fun _ => (Call.attempting_sameIds.processIn _).bind sameIds_chains
    fun _ => (Call.sameIds_inStore _).bind sameIds_chains fun _ => Moves.pure sameIds_chains _

section ids
variable {w w' : World} {c c' : World × List OutboxRow} {d : Deed}

/-- How many ids a deed draws that announces nothing. -/
def Deed.draws : Deed → Nat
  | .forward _ | .consume _ => 1
  | _ => 0

theorem Deed.draws_le (d : Deed) : d.draws ≤ 1 := by
  cases d <;> simp [draws]

/-- The deed announces an order, if it succeeds. -/
def Deed.IsAnnouncement : Deed → Prop
  | .accept _ _ | Deed.readmit _ _ _ => True
  | _ => False

theorem Call.trySend_ids {m : Message} {r : Except OperationError (Except TransportError Uuid)}
    (h : Call.trySend m w = some (r, w')) : w'.ids.next = w.ids.next + 1 := by
  rcases Call.trySend_eq_some h with ⟨-, -, rfl⟩ | ⟨-, -, rfl⟩
  · rfl
  · rfl

theorem Call.acknowledge_ids {receipt : String} {r : Except OperationError Unit}
    (h : Call.acknowledge receipt w = some (r, w')) : w'.ids = w.ids := by
  obtain ⟨hw', -⟩ := Call.acknowledge_eq_some h
  rw [hw', nextDisturbance_ids]

theorem MessageConsumer.Polls.ids {consumer : MessageConsumer} (h : consumer.Polls w w') :
    w'.ids.next = w.ids.next + 1 := by
  cases h with
  | refused hreceive | idle hreceive | malformed hreceive _ =>
    exact (Call.receive_eq_some hreceive).1
  | attempted hreceive _ hprocess _ =>
    rw [sameIds_process _ _ _ _ _ hprocess, (Call.receive_eq_some hreceive).1]
  | acknowledged hreceive _ hprocess hack =>
    rw [Call.acknowledge_ids hack, sameIds_process _ _ _ _ _ hprocess,
      (Call.receive_eq_some hreceive).1]

/-- **The ids that a turn draws**, if it announces nothing. -/
theorem Turn.ids_next (h : Turn c d c') (hd : ¬ d.IsAnnouncement) :
    c'.1.ids.next = c.1.ids.next + d.draws := by
  have hsame {w w' : World} (h : SameIds w w') : w'.ids.next = w.ids.next + 0 :=
    congrArg (·.next) h
  cases h with
  | accept _ | readmit _ => exact absurd trivial hd
  | process h => exact hsame (sameIds_process _ _ _ _ _ h)
  | round h =>
    obtain ⟨_, _, _, -, htakes⟩ := QueueReader.round_takes h
    cases htakes with
    | nothing _ => rfl
    | took _ hprocess =>
      have hids := sameIds_process _ _ _ _ _ hprocess
      exact congrArg (·.next) hids
  | release h | lease h | noLease h =>
    exact hsame (Call.sameIds_transact (fun _ => Call.sameIds_inStore _) _ _ _ h)
  | settle _ h => exact hsame (OutboxProcessor.sameIds_settle _ _ _ _ _ _ h)
  | giveUp _ h hgive =>
    exact hsame (sameIds_chains.trans (OutboxProcessor.sameIds_settle _ _ _ _ _ _ h)
      (Call.sameIds_transact (fun _ => Call.sameIds_inStore _) _ _ _ hgive))
  | forward _ hsend h =>
    have hsettled := Call.sameIds_transact (fun _ => Call.sameIds_inStore _) _ _ _ h
    show _ = _
    rw [show _ = _ from hsettled, Call.trySend_ids hsend]
    rfl
  | consume h => exact (MessageConsumer.poll_polls h).ids
  | wait _ | others _ _ _ => rfl

end ids

/-! ## At rest -/

/-- A call ends if what follows its first part does. -/
theorem ends_bind {σ ε α β : Type} {m : Attempt σ ε α} {f : α → Attempt σ ε β} {s s₁ : σ} {a : α}
    (hm : m s = some (.ok a, s₁)) (hf : ∃ r s', f a s₁ = some (r, s')) :
    ∃ r s', (m >>= f) s = some (r, s') := by
  rw [bind_apply, hm]
  exact hf

theorem Call.popQueue_ends (ms : Nat) (w : World) :
    ∃ r w', Call.popQueue (some ms) w = some (r, w') := by
  unfold Call.popQueue
  split
  · exact ⟨_, _, rfl⟩
  · split
    · exact ⟨_, _, rfl⟩
    · exact ⟨_, _, rfl⟩

theorem StopRequest.sleep_ends (stop : StopRequest) (ms : Nat) (w : World) :
    ∃ stopped w', stop.sleep ms w = some (.ok stopped, w') := by
  unfold StopRequest.sleep
  split
  · exact ⟨_, _, rfl⟩
  · split
    · exact ⟨_, _, rfl⟩
    · exact ⟨_, _, rfl⟩

theorem Call.trySend_ends (m : Message) (w : World) :
    ∃ sent w', Call.trySend m w = some (.ok sent, w') := by
  rw [Call.trySend_eq]
  split
  · exact ⟨_, _, rfl⟩
  · exact ⟨_, _, rfl⟩

theorem Call.acknowledge_ends (receipt : String) (w : World) :
    ∃ r w', Call.acknowledge receipt w = some (r, w') := by
  have hanswers : ∃ r t', Transport.acknowledge receipt w.nextDisturbance.transport =
      some (r, t') := by
    unfold Transport.acknowledge Transport.whenAvailable
    split
    · dsimp only
      split
      · exact ⟨_, _, rfl⟩
      · exact ⟨_, _, rfl⟩
    · exact ⟨_, _, rfl⟩
  obtain ⟨r, t', hanswer⟩ := hanswers
  exact ⟨r.mapError .transport, { w.nextDisturbance with transport := t' },
    mapError_eq_some_iff.mpr ⟨r, onPart_eq_some_iff.mpr ⟨t', hanswer, rfl⟩, rfl⟩⟩

/-- **At rest**: nobody interferes, and no transaction is open. -/
structure World.AtRest (w : World) : Prop where
  orderly : w.store.Orderly
  steady : w.Steady
  closed : ∀ u, w.store.opened.find? u = none

namespace World.AtRest

variable {w w' : World} {claimed rest : List OutboxRow}

theorem idle (h : w.AtRest) : w.Idle true :=
  ⟨h.orderly, h.closed, h.steady.store, h.steady.disturbances⟩

/-- Calls that leave the store alone. -/
theorem elsewhere (h : w.AtRest) (hsteady : w'.Steady) (helse : Elsewhere w w') : w'.AtRest :=
  ⟨helse.orderly h.orderly, hsteady, fun u => by rw [helse.opened, h.closed]⟩

/-- **An order can be tried.** -/
theorem process (h : w.AtRest) (id : OrderId) (m : Nat) :
    ∃ r w', process id m w = some (r, w') := by
  obtain ⟨r, w', b', hcall, -⟩ := h.idle.process id m
  exact ⟨r, w', hcall⟩

/-- **A look into the queue can be taken.** -/
theorem round (h : w.AtRest) (claimed : List OutboxRow) (q : QueueReader) :
    ∃ w', Turn (w, claimed) (.round q) (w', claimed) := by
  suffices hends : ∃ r w', q.round ⟨0, 0⟩ {} w = some (r, w') by
    obtain ⟨r, w', hround⟩ := hends
    exact ⟨w', .round hround⟩
  obtain ⟨r, w₁, hpop⟩ := Call.popQueue_ends q.pollIntervalMs w
  rcases Call.popQueue_eq_some hpop with ⟨-, rfl, clock, rfl⟩ | ⟨id, rest, -, rfl, rfl⟩
  · exact ends_bind hpop ⟨_, _, rfl⟩
  · -- The order is out of the queue, and the store is as it was.
    have hbefore : Undisturbed w { w with queue := { w.queue with items := rest } } :=
      undisturbed_of_eq rfl rfl rfl rfl rfl
    have hrest : AtRest { w with queue := { w.queue with items := rest } } :=
      ⟨h.orderly, hbefore.steady h.steady, h.closed⟩
    obtain ⟨result, w₂, hprocess⟩ := hrest.process id q.maxRetries
    obtain ⟨stopped, w₃, hsleep⟩ := StopRequest.sleep_ends ⟨0, 0⟩ q.retryDelayMs w₂
    refine ends_bind hpop (ends_bind (outcome_eq_some_iff.mpr ⟨result, hprocess, rfl⟩) ?_)
    split
    · exact ends_bind hsleep ⟨_, _, rfl⟩
    · exact ⟨_, _, rfl⟩

/-- **A claimed row can be settled.** -/
theorem settle (h : w.AtRest) (p : OutboxProcessor) (e : OutboxRow) (rest : List OutboxRow) :
    ∃ w', Turn (w, e :: rest) (.settle p) (w', rest) := by
  obtain ⟨r, w', -, hcall, -⟩ := h.idle.settle p e .newYear2024
  exact ⟨w', .settle (Or.inl rfl) hcall⟩

/-- **A claimed row can be sent.** -/
theorem forward (h : w.AtRest) (r : Forwarder) (e : OutboxRow) (rest : List OutboxRow) :
    ∃ w', Turn (w, e :: rest) (.forward r) (w', rest) := by
  obtain ⟨sent, w₁, hsend⟩ := Call.trySend_ends e.toMessage w
  have hrest := h.elsewhere ((Call.undisturbed_trySend _ _ _ _ hsend).steady h.steady)
    (Call.moves_trySend _ _ _ _ hsend)
  have hkeeps := (r.verdict e .newYear2024 sent).change_keepsId .newYear2024
  obtain ⟨settled, w', hsettle, -⟩ :=
    hrest.idle.transact_inStore fun t => Store.total_changeRow (t := t) e.id hkeeps
  simp only [← ForwardingVerdict.settle_eq] at hsettle
  exact ⟨w', .forward (Or.inl rfl) hsend hsettle⟩

/-- **The transport can be polled.** -/
theorem consume (h : w.AtRest) (claimed : List OutboxRow) (c : MessageConsumer) :
    ∃ w', Turn (w, claimed) (.consume c) (w', claimed) := by
  suffices hends : ∃ r w', c.poll w = some (r, w') by
    obtain ⟨r, w', hpoll⟩ := hends
    exact ⟨w', .consume hpoll⟩
  obtain ⟨found, w₁, hreceive⟩ : ∃ found w₁, Call.receive c.waitMs w = some (.ok found, w₁) :=
    ⟨_, _, Call.receive_of_steady h.steady c.waitMs⟩
  refine ends_bind hreceive ?_
  cases found with
  | none => exact ⟨_, _, rfl⟩
  | some d =>
    dsimp only
    cases hp : Payload.ofBody? d.message.body with
    | error cause => exact ⟨_, _, rfl⟩
    | ok p =>
      have hrest := h.elsewhere ((Call.undisturbed_receive _ _ _ _ hreceive).steady h.steady)
        (Call.moves_receive _ _ _ _ hreceive)
      obtain ⟨r, w₂, hprocess⟩ := hrest.process p.order c.maxRetries
      refine ends_bind (outcome_eq_some_iff.mpr ⟨r, hprocess, rfl⟩) ?_
      -- Only an order that is done leads to an acknowledgement.
      rcases r with cause | _ | _ | _
      · exact ⟨_, _, rfl⟩
      · obtain ⟨acknowledged, w₃, hack⟩ := Call.acknowledge_ends (toString d.receipt) w₂
        exact ends_bind (outcome_eq_some_iff.mpr ⟨acknowledged, hack, rfl⟩) ⟨_, _, rfl⟩
      · exact ⟨_, _, rfl⟩
      · exact ⟨_, _, rfl⟩

end World.AtRest

end OrderFlow
