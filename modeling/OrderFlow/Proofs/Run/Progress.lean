import Mathlib.Algebra.GroupWithZero.Nat
import Mathlib.Algebra.Order.BigOperators.Group.Finset
import OrderFlow.Proofs.Run.Lockstep
import OrderFlow.Proofs.Run.Memory
import OrderFlow.Proofs.Run.Transit

/-! # Progress on every route

    Work that is found is done, and each time there is less of it:

    * a look into a queue that is not empty is an attempt on an order, and so
      is the settlement of a claimed row where rows and orders are in lockstep.
      An order has only so many attempts (`World.attemptsLeft`);
    * a poll of the transport that can see a message delivers one or gives up
      on one.  A message is delivered only so often (`Transport.receivesLeft`);
    * a row that is forwarded is done, at the price of one more message.

    Each is a statement about any turn of that kind where nobody interferes,
    whatever the settings of the worker are. -/

namespace OrderFlow

open World Attempt

/-! ## Attempts -/

section attempts
variable {w w' : World} {o : Order} {m : Nat}

/-- The orders that there are. -/
def Store.known (s : Store) : Finset OrderId :=
  s.orders.keys.toFinset

theorem Store.mem_known {s : Store} {id : OrderId} :
    id ∈ s.known ↔ (s.orders.find? id).isSome := by
  have hkeys := s.orders.find?_eq_none_iff (k := id)
  rw [Store.known, List.mem_toFinset, ← not_iff_not, ← hkeys]
  simp

/-- How many attempts are left, if each order is given up on after `m`. -/
def World.attemptsLeft (w : World) (m : Nat) : Nat :=
  ∑ id ∈ w.store.known, (m - w.processor.calls.count id)

/-- **An attempt is one less that is left.** -/
theorem World.Tried.attemptsLeft_lt (h : Tried w o m w')
    (hfew : w.processor.calls.count o.id < m) : w'.attemptsLeft m < w.attemptsLeft m := by
  obtain ⟨now, horders, -⟩ := h.written
  have hknown : w'.store.known = w.store.known := by
    ext id
    rw [Store.mem_known, Store.mem_known, horders]
    split
    · next hid => simp [← hid, h.order]
    · exact Iff.rfl
  have hless (id : OrderId) :
      m - w'.processor.calls.count id ≤ m - w.processor.calls.count id := by
    rw [h.called, List.count_append]
    omega
  -- The order that was tried has one attempt less than before.
  have hself : m - w'.processor.calls.count o.id < m - w.processor.calls.count o.id := by
    have hcount : w'.processor.calls.count o.id = w.processor.calls.count o.id + 1 := by
      simp [h.called]
    omega
  have hmem : o.id ∈ w.store.known := Store.mem_known.mpr (by rw [h.order]; rfl)
  unfold World.attemptsLeft
  rw [hknown]
  exact Finset.sum_lt_sum (fun id _ => hless id) ⟨o.id, hmem, hself⟩

/-- An order that is to be processed has come up. -/
theorem World.Attends.tried_of_pending {id : OrderId} (h : Attends w id m w')
    (ho : w.store.orders.find? id = some o) (hpending : o.status = .pending) :
    ∃ o, Tried w o m w' := by
  cases h with
  | idle _ hsettled => exact absurd hpending (hsettled o ho)
  | tried _ htried => exact ⟨_, htried⟩

end attempts

section turns
variable {w w' : World} {claimed claimed' rest left : List OutboxRow} {e : OutboxRow} {m : Nat}

/-- **A look into a queue that is not empty** is an attempt on an order. -/
theorem Turn.round_tries {q : QueueReader} (h : Turn (w, claimed) (.round q) (w', claimed'))
    (hw : w.Queued) (horderly : w.store.Orderly) (hsteady : w.Steady)
    (hitems : w.queue.items ≠ []) : ∃ o, Tried w o q.maxRetries w' := by
  cases h with
  | round h =>
    obtain ⟨_, _, _, -, htakes⟩ := QueueReader.round_takes h
    cases htakes with
    | nothing hempty => exact absurd hempty hitems
    | @took rest id r w₁ clock hfront hprocess =>
      -- What is in the queue is to be processed.
      obtain ⟨o, ho, hpending⟩ := hw.pending_of_mem (hfront ▸ List.mem_cons_self)
      obtain ⟨-, hattends, -⟩ := process_taken horderly hsteady hprocess
      obtain ⟨o, htried⟩ := hattends.tried_of_pending ho hpending
      exact ⟨o, htried.within (sameOrders_chains.refl w) rfl (sameOrders_of_eq rfl rfl)⟩

/-- What a row becomes when the attempt on its order has ended. -/
theorem OutboxProcessor.settled_status (p : OutboxProcessor) (e row : OutboxRow) (now : Instant)
    (ending : Outcome) : (p.settled e now ending row).status ≠ .processing := by
  cases ending <;> nofun

/-- **The settlement of a claimed row** is an attempt on its order, if rows and
    orders are in lockstep.  The row is in processing no longer. -/
theorem Turn.settle_tries {p : OutboxProcessor}
    (h : Turn (w, e :: rest) (.settle p) (w', left)) (hw : w.Lockstep (e :: rest))
    (horderly : w.store.Orderly) (hsteady : w.Steady) :
    (∃ o, Tried w o p.maxRetries w') ∧
      (∀ row, e.id ≠ row → w'.store.rows.find? row = w.store.rows.find? row) ∧
      ∀ e', w'.store.rows.find? e.id = some e' → e'.status ≠ .processing := by
  obtain ⟨row, hrow, horder, hlive⟩ := hw.held e List.mem_cons_self
  obtain ⟨o, ho, hpending⟩ := hw.inStep.owed hrow hlive
  rw [horder] at ho
  cases h with
  | giveUp hlasting h _ =>
    rw [hw.not_lasting horderly h] at hlasting
    cases hlasting
  | settle hleft h =>
    cases OutboxProcessor.settle_ended horderly h with
    | refused _ hrefused => exact absurd hsteady hrefused
    | failed hsettles _ =>
      -- Neither the row nor its order is missing.
      cases hsettles with
      | missing hnone => simp [hrow] at hnone
      | failed htries =>
        cases htries with
        | unknown hnone => simp [ho] at hnone
    | @committed ending _ _ _ hsettles hwrote =>
      cases hsettles with
      | @settled _ _ _ row' htries hfound =>
        obtain ⟨hattends, -⟩ := htries.attends hwrote (by simp) (by simp)
        refine ⟨hattends.tried_of_pending ho hpending, fun i hi => ?_, fun e' he' => ?_⟩
        · rw [hwrote.rows, Store.rowIn_putRow, if_neg hi, Store.rowIn_hold]
          exact htries.rowIn i
        · rw [hwrote.rows, Store.rowIn_putRow, if_pos rfl, Option.some.injEq] at he'
          rw [← he']
          exact p.settled_status e row' _ ending

end turns

/-! ## Deliveries -/

namespace Transport

/-- How many deliveries of its messages are left, and for each message that it is
    given up on in the end. -/
def receivesLeft (t : Transport) : Nat :=
  (t.messages.map fun x => t.maxReceives - x.receiveCount + 1).sum

/-- **A look that can see a message** delivers one or gives up on one. -/
theorem lookThrough_finds (t : Transport) (receipt : Uuid) (now : Nat) {l : List HeldMessage}
    (h : ∃ x ∈ l, x.isVisible now = true) :
    (t.lookThrough receipt now l).found.isSome ∨
      (t.lookThrough receipt now l).exhausted ≠ [] := by
  induction l with
  | nil => simp at h
  | cons m rest ih =>
    rw [lookThrough]
    split
    · next hhidden =>
      -- The first message is not the one that can be seen.
      obtain ⟨x, hx, hvisible⟩ := h
      refine ih ⟨x, (List.mem_cons.mp hx).resolve_left ?_, hvisible⟩
      rintro rfl
      simp [hvisible] at hhidden
    · split
      · exact Or.inr (List.cons_ne_nil _ _)
      · exact Or.inl rfl

/-- A receive takes no dead letter away. -/
theorem Receives.length_deadLetters {t t' : Transport} {receipt : Uuid}
    {found : Option Delivery} (h : Receives t receipt found t') :
    t.deadLetters.length ≤ t'.deadLetters.length := by
  cases h <;> simp

/-- **So does a receive**, whatever else happens while it waits. -/
theorem lookAt_finds (t : Transport) (receipt : Uuid) (now : Nat) (moments : List Nat)
    (h : ∃ x ∈ t.messages, x.isVisible now = true) :
    (t.lookAt receipt now moments).1.1.isSome ∨
      t.deadLetters.length < (t.lookAt receipt now moments).2.deadLetters.length := by
  have hfirst : (t.deliverNext receipt now).1.isSome ∨
      t.deadLetters.length < (t.deliverNext receipt now).2.deadLetters.length := by
    rcases t.lookThrough_finds receipt now h with hfound | hspent
    · exact Or.inl hfound
    · refine Or.inr ?_
      show _ < (t.deadLetters ++ _).length
      rw [List.length_append]
      exact Nat.lt_add_of_pos_right (List.length_pos_iff.mpr hspent)
  cases moments with
  | nil => exact hfirst
  | cons next rest =>
    rw [lookAt]
    rcases hlook : t.deliverNext receipt now with ⟨_ | d, t₁⟩
    · -- It goes on looking, and what was given up on stays so.
      rw [hlook] at hfirst
      have hmore := hfirst.resolve_left (by simp)
      exact Or.inr (Nat.lt_of_lt_of_le hmore
        (t₁.lookAt_receives receipt next rest).length_deadLetters)
    · exact Or.inl rfl

/-- **A receive that delivers or gives up on a message** leaves less to be delivered. -/
theorem Receives.receivesLeft_lt {t t' : Transport} {receipt : Uuid} {found : Option Delivery}
    (h : Receives t receipt found t')
    (hfound : found.isSome ∨ t.deadLetters.length < t'.deadLetters.length) :
    t'.receivesLeft < t.receivesLeft := by
  unfold receivesLeft
  cases h with
  | @nothing kept spent hspent hmessages =>
    have hmore : 0 < spent.length := by simpa using hfound
    obtain ⟨x, spent, rfl⟩ := List.exists_cons_of_length_pos hmore
    rw [(hmessages.map _).sum_eq]
    simp
  | @delivery m hiddenUntil rest kept spent hcount hspent hmessages hkept =>
    have hdelivered : (m.deliver receipt hiddenUntil).receiveCount = m.receiveCount + 1 := rfl
    show (kept.map fun x => t.maxReceives - x.receiveCount + 1).sum < _
    rw [(hmessages.map _).sum_eq, (hkept.map _).sum_eq]
    simp only [List.map_cons, List.sum_cons, List.map_append, List.sum_append, hdelivered]
    omega

/-- **No more is left** to be delivered than before. -/
structure Dwindles (t t' : Transport) : Prop where
  receivesLeft : t'.receivesLeft ≤ t.receivesLeft
  maxReceives : t'.maxReceives = t.maxReceives

theorem dwindles_chains : Chains Dwindles where
  refl _ := ⟨Nat.le_refl _, rfl⟩
  trans h₁ h₂ := ⟨Nat.le_trans h₂.receivesLeft h₁.receivesLeft, h₂.maxReceives.trans h₁.maxReceives⟩

theorem dwindles_of_eq {t t' : Transport} (hmessages : t'.messages = t.messages)
    (hmax : t'.maxReceives = t.maxReceives) : t.Dwindles t' where
  receivesLeft := by
    unfold Transport.receivesLeft
    rw [hmessages, hmax]
  maxReceives := hmax

end Transport

section polls
variable {w w' w₁ : World} {claimed claimed' : List OutboxRow} {c : MessageConsumer}

theorem World.Around.dwindles (h : Around w w') : w.transport.Dwindles w'.transport :=
  Transport.dwindles_of_eq h.messages h.onlyTakes.maxReceives

theorem Call.dwindles_acknowledge {receipt : String} {r : Except OperationError Unit}
    (h : Call.acknowledge receipt w = some (r, w')) : w.transport.Dwindles w'.transport := by
  have hbefore := (around_nextDisturbance w).dwindles
  obtain ⟨-, ⟨-, m, kept, -, hmessages, htransport⟩ | ⟨-, htransport⟩⟩ :=
    Call.acknowledge_eq_some h
  · rw [htransport]
    refine ⟨Nat.le_trans ?_ hbefore.receivesLeft, hbefore.maxReceives⟩
    unfold Transport.receivesLeft
    rw [(hmessages.map _).sum_eq]
    simp
  · rw [htransport]
    exact hbefore

/-- After its receive a poll sends nothing. -/
theorem MessageConsumer.Polls.dwindles (h : c.Polls w w') (horderly : w.store.Orderly)
    (hw : w.Steady) : (w.look c.waitMs).2.Dwindles w'.transport := by
  have hreceived {w₁ : World} {found : Except OperationError (Option Delivery)}
      (h : Call.receive c.waitMs w = some (found, w₁)) :
      (w.look c.waitMs).2.Dwindles w₁.transport ∧ w₁.store.Orderly := by
    rw [Call.receive_of_steady hw] at h
    cases h
    exact ⟨Transport.dwindles_chains.refl _, horderly⟩
  cases h with
  | refused hreceive | idle hreceive | malformed hreceive _ => exact (hreceived hreceive).1
  | attempted hreceive _ hprocess _ =>
    obtain ⟨hfirst, horderly₁⟩ := hreceived hreceive
    exact Transport.dwindles_chains.trans hfirst (process_ended horderly₁ hprocess).around.dwindles
  | acknowledged hreceive _ hprocess hack =>
    obtain ⟨hfirst, horderly₁⟩ := hreceived hreceive
    have hsecond := (process_ended horderly₁ hprocess).around.dwindles
    exact Transport.dwindles_chains.trans hfirst
      (Transport.dwindles_chains.trans hsecond (Call.dwindles_acknowledge hack))

/-- **A poll of the transport** that can see a message leaves less to be delivered,
    and rows as they are. -/
theorem Turn.consume_delivers (h : Turn (w, claimed) (.consume c) (w', claimed'))
    (horderly : w.store.Orderly) (hsteady : w.Steady)
    (hvisible : ∃ x ∈ w.transport.messages, x.isVisible w.clock.elapsed = true) :
    w'.transport.receivesLeft < w.transport.receivesLeft ∧
      w'.transport.maxReceives = w.transport.maxReceives ∧
      ∀ row, w'.store.rows.find? row = w.store.rows.find? row := by
  cases h with
  | consume h =>
    have hreceives : w.transport.Receives (.versionFour w.ids.next) (w.look c.waitMs).1.1
        (w.look c.waitMs).2 := w.transport.lookAt_receives _ _ _
    have hless := hreceives.receivesLeft_lt (w.transport.lookAt_finds _ _ _ hvisible)
    have hrest := (MessageConsumer.poll_polls h).dwindles horderly hsteady
    exact ⟨Nat.lt_of_le_of_lt hrest.receivesLeft hless,
      hrest.maxReceives.trans hreceives.settings.2, (MessageConsumer.keepsRows horderly h).rows⟩

end polls

/-! ## Rows that are sent -/

/-- The rows that are still owed work. -/
def Store.live (s : Store) : Finset RowId :=
  s.rows.keys.toFinset.filter fun row => (s.rows.find? row).any fun e => !e.status.isSettled

theorem Store.mem_live {s : Store} {row : RowId} :
    row ∈ s.live ↔ ∃ e, s.rows.find? row = some e ∧ e.Live := by
  have hkeys := s.rows.find?_eq_none_iff (k := row)
  rw [Store.live, Finset.mem_filter, List.mem_toFinset, ← not_not (a := row ∈ s.rows.keys), ← hkeys]
  cases s.rows.find? row with
  | none => simp
  | some e => simp

section rows
variable {w w' : World} {rest left : List OutboxRow} {e : OutboxRow} {r : Forwarder}

/-- **A row that is sent is done**, the others are as they were, and there is one
    message more. -/
theorem Turn.forward_sends (h : Turn (w, e :: rest) (.forward r) (w', left))
    (horderly : w.store.Orderly) (hsteady : w.Steady)
    (hrow : (w.store.rows.find? e.id).isSome) :
    (∃ e', w'.store.rows.find? e.id = some e' ∧ e'.status = .processed) ∧
      (∀ row, e.id ≠ row → w'.store.rows.find? row = w.store.rows.find? row) ∧
      w'.transport.messages = w.transport.messages ++
        [{ id := .versionFour w.ids.next, message := e.toMessage }] ∧
      w'.transport.maxReceives = w.transport.maxReceives := by
  cases h with
  | @forward _ w₁ _ _ _ _ _ now sent settled _ hsend h =>
    obtain ⟨hsent, hw₁⟩ := Call.trySend_steady hsteady hsend
    cases hsent
    have hsteady₁ := (Call.undisturbed_trySend _ _ _ _ hsend).steady hsteady
    have horderly₁ := (Call.moves_trySend _ _ _ _ hsend).orderly horderly
    have hstore : w₁.store = w.store := by rw [hw₁]
    have hended := ForwardingVerdict.settle_changes horderly₁ h
    have hmessages : w'.transport.messages = w.transport.messages ++
        [{ id := .versionFour w.ids.next, message := e.toMessage }] := by
      rw [hended.around.messages, hw₁]
    have hmax : w'.transport.maxReceives = w.transport.maxReceives := by
      rw [hended.around.onlyTakes.maxReceives, hw₁]
    -- The row is there and nobody interferes, so the settlement is committed.
    cases hended with
    | refused _ hrefused => exact absurd hsteady₁ hrefused
    | failed hchanges _ =>
      cases hchanges with
      | missing hnone => simp [← hstore, hnone] at hrow
    | committed hchanges hwrote =>
      cases hchanges with
      | @changed row hfound =>
        have hrows (i : RowId) : w'.store.rows.find? i =
            if e.id = i then some (row.complete now) else w.store.rows.find? i := by
          rw [hwrote.rows, Store.rowIn_putRow, Store.rowIn_hold, Store.rowIn_empty, hstore]
          rfl
        refine ⟨⟨row.complete now, by rw [hrows, if_pos rfl], rfl⟩, fun i hi => ?_, hmessages, hmax⟩
        rw [hrows, if_neg hi]

end rows

end OrderFlow
