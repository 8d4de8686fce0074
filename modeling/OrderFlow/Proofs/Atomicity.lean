import OrderFlow.Proofs.Stages

/-! # Operations happen or do not

    Accepting an order, readmitting it and an attempt on it can fail at
    their begin, after anything that they have staged, after the processor
    was called, at their commit, and once more after it, when the order is
    to be made known.

    The main statement starts from any store in order, whatever its tables
    hold, and says of each of the three operations that it has an outcome,
    and what each outcome has left behind. -/

namespace OrderFlow

open Attempt

namespace PublishMode

variable {keys : List LockKey} {w : World}

/-! ## Making an order known -/

/-- The transport with one more message. -/
def delivered (t : Transport) (id : Uuid) (message : Message) : Transport :=
  { t with messages := t.messages ++ [{ id := id, message := message }] }

/-- The world in which an order was made known, by a message under the id
    `message` if it is one. -/
def signalled (mode : PublishMode) (order : OrderId) (correlation : Option String)
    (message : Uuid) (w : World) : World :=
  match mode with
  | .outbox => w
  | .inMemory => { w with queue := w.queue.push order }
  | .transport =>
    { w with transport := delivered w.transport message (Signal.toMessage ⟨order, correlation⟩) }

theorem signalled_store (mode : PublishMode) (order : OrderId) (correlation : Option String)
    (message : Uuid) (w : World) :
    (mode.signalled order correlation message w).store = w.store := by
  cases mode <;> rfl

theorem unchanged_signalled {w' : World} (h : w.Unchanged w') (mode : PublishMode)
    (order : OrderId) (correlation : Option String) (message : Uuid) :
    (mode.signalled order correlation message w).Unchanged
      (mode.signalled order correlation message w') := by
  cases mode with
  | outbox => exact h
  | inMemory => exact ⟨h.store, congrArg (·.push order) h.queue, h.transport⟩
  | transport =>
    obtain ⟨b, hb⟩ := h.transport
    refine ⟨h.store, h.queue, ⟨b, ?_⟩⟩
    show delivered w'.transport message _ = _
    rw [hb]
    rfl

theorem unchanged_countSend (w : World) : w.Unchanged w.countSend := by
  unfold World.countSend
  split
  · exact ⟨⟨false, w.store.nextTx, rfl⟩, rfl, ⟨_, rfl⟩⟩
  · exact ⟨⟨_, _, rfl⟩, rfl, ⟨_, rfl⟩⟩

/-- A message is sent under an id that was just drawn, or the transport
    refuses it and has not got it. -/
theorem send_or_refused (message : Message) (w : World) :
    (∃ id w', Call.send message w = some (.ok id, w') ∧
        World.Unchanged { w with transport := delivered w.transport id message } w') ∨
      ∃ cause w', Call.send message w = some (.error cause, w') ∧ w.Unchanged w' ∧ ¬ w.Calm := by
  -- The world as it is once others have done what they do, and with an id drawn.
  obtain ⟨v, hv⟩ : ∃ v, v = w.nextDisturbance.countSend := ⟨_, rfl⟩
  have hunchanged : w.Unchanged v := by
    rw [hv]
    exact (World.unchanged_nextDisturbance w).trans (unchanged_countSend _)
  have htry : Call.trySend message w =
      Attempt.outcome (.onPart World.transport (fun t w => { w with transport := t }) do
        Transport.send (.versionFour v.ids.next) message
        pure (.versionFour v.ids.next)) { v with ids := ⟨v.ids.next + 1⟩ } := by
    rw [hv]
    rfl
  cases havailable : v.transport.available with
  | true =>
    have hs : Transport.send (.versionFour v.ids.next) message v.transport =
        some (.ok (), delivered v.transport (.versionFour v.ids.next) message) := if_pos havailable
    have hsent : Call.trySend message w = some (.ok (.ok (.versionFour v.ids.next)),
        { v with
          ids := ⟨v.ids.next + 1⟩
          transport := delivered v.transport (.versionFour v.ids.next) message }) := by
      rw [htry]
      refine outcome_eq_some_iff.mpr ⟨_, onPart_eq_some_iff.mpr ⟨_, ?_, rfl⟩, rfl⟩
      exact bind_eq_ok_iff.mpr ⟨(), _, hs, rfl⟩
    refine Or.inl ⟨_, _, bind_eq_ok_iff.mpr ⟨_, _, hsent, rfl⟩, ?_⟩
    obtain ⟨b, n, hstore⟩ := hunchanged.store
    obtain ⟨c, htransport⟩ := hunchanged.transport
    refine ⟨⟨b, n, hstore⟩, hunchanged.queue, ⟨c, ?_⟩⟩
    show delivered v.transport _ message = _
    rw [htransport]
    rfl
  | false =>
    have hs : Transport.send (.versionFour v.ids.next) message v.transport =
        some (.error Transport.offline, v.transport) := if_neg (by simp [havailable])
    have hrefused : Call.trySend message w = some (.ok (.error Transport.offline),
        { v with ids := ⟨v.ids.next + 1⟩ }) := by
      rw [htry]
      refine outcome_eq_some_iff.mpr ⟨_, onPart_eq_some_iff.mpr ⟨_, ?_, rfl⟩, rfl⟩
      exact bind_eq_some_iff.mpr (Or.inr ⟨_, hs, rfl⟩)
    refine Or.inr ⟨_, _, bind_eq_some_iff.mpr (Or.inl ⟨_, _, hrefused, rfl⟩), ?_, ?_⟩
    · exact ⟨hunchanged.store, hunchanged.queue, hunchanged.transport⟩
    · intro hcalm
      have hsame : v.transport = w.transport := by
        rw [hv, hcalm.nextDisturbance_eq]
        unfold World.countSend
        split <;> rfl
      rw [hsame, hcalm.transport] at havailable
      cases havailable

theorem emitAll_pending (mode : PublishMode) (order : OrderId) (correlation : Option String)
    (w : World) :
    (∃ message w', mode.emitAll (mode.pending order correlation) w = some (.ok (), w') ∧
        (mode.signalled order correlation message w).Unchanged w') ∨
      ∃ cause w', mode.emitAll (mode.pending order correlation) w =
          some (.error (.unannounced order cause), w') ∧ w.Unchanged w' ∧ ¬ w.Calm := by
  cases mode with
  | outbox => exact Or.inl ⟨.ofNat 0, w, rfl, World.Unchanged.refl w⟩
  | inMemory => exact Or.inl ⟨.ofNat 0, _, rfl, World.Unchanged.refl _⟩
  | transport =>
    have hemit : (transport.emitAll (transport.pending order correlation)) =
        (do (transport.emit ⟨order, correlation⟩).mapError (.unannounced order); pure ()) := rfl
    rw [hemit]
    rcases send_or_refused (Signal.toMessage ⟨order, correlation⟩) w with
      ⟨id, w', hsent, hunchanged⟩ | ⟨cause, w', hrefused, hunchanged, hcalm⟩
    · refine Or.inl ⟨id, w', bind_eq_ok_iff.mpr ⟨(), w', ?_, rfl⟩, hunchanged⟩
      exact mapError_eq_some_iff.mpr ⟨_, bind_eq_ok_iff.mpr ⟨id, w', hsent, rfl⟩, rfl⟩
    · refine Or.inr ⟨cause, w', bind_eq_some_iff.mpr (Or.inr ⟨_, ?_, rfl⟩), hunchanged, hcalm⟩
      refine mapError_eq_some_iff.mpr ⟨_, bind_eq_some_iff.mpr (Or.inr ⟨cause, hrefused, rfl⟩), ?_⟩
      rfl

/-! ## All or nothing -/

/-- **How an operation is concluded** that writes one of the stores in
    `written`, if there is any, and then makes `order` known. -/
inductive Concluded {α : Type} (mode : PublishMode) (order : OrderId)
    (correlation : Option String) (written : Store → Prop) (a : α) (w : World) :
    Except OperationError α → World → Prop where
  /-- It has not committed. -/
  | undone {e : OperationError} {w' : World} (known : ∀ order cause, e ≠ .unannounced order cause)
    (unchanged : w.Unchanged w') (reason : ¬ w.Calm ∨ ∀ s, ¬ written s) :
    Concluded mode order correlation written a w (.error e) w'
  /-- It has committed and nobody was told. -/
  | untold {s : Store} {cause : OperationError} {w' : World} (hs : written s)
    (unchanged : World.Unchanged { w with store := s } w') (reason : ¬ w.Calm) :
    Concluded mode order correlation written a w (.error (.unannounced order cause)) w'
  /-- It has committed and the order was made known. -/
  | done {s : Store} {message : Uuid} {w' : World} (hs : written s)
    (unchanged : (mode.signalled order correlation message { w with store := s }).Unchanged w') :
    Concluded mode order correlation written a w (.ok a) w'

/-- What is left after a begin that has drawn some ids and nothing else. -/
theorem unchanged_left {w left : World} (h : ∃ ids, left = { w.opening with ids := ids }) :
    w.Unchanged left.nextDisturbance ∧ (w.Calm → left.Calm) := by
  obtain ⟨ids, rfl⟩ := h
  have hopening := World.unchanged_opening w
  have hleft : w.Unchanged { w.opening with ids := ids } :=
    ⟨hopening.store, hopening.queue, hopening.transport⟩
  refine ⟨hleft.trans (World.unchanged_nextDisturbance _), fun hcalm => ?_⟩
  have hnext := hcalm.nextDisturbance_eq
  refine ⟨?_, ?_, ?_⟩
  · show w.nextDisturbance.store.available = true
    rw [hnext, hcalm.store]
  · show w.nextDisturbance.transport.available = true
    rw [hnext, hcalm.transport]
  · show w.nextDisturbance.disturbances = []
    rw [hnext, hcalm.disturbances]

/-- **An operation on its own**: a transaction, and then the order is made
    known. -/
theorem concluded {α β : Type} {mode : PublishMode} {order : OrderId}
    {correlation : Option String} {written : Store → Prop} {a : α} {body : TxId → Call β}
    {f : β → Call α} {Q : β → Transaction → World → Prop} {E : OperationError → World → Prop}
    (hw : w.store.Orderly) (hfree : w.store.Unheld keys)
    (hbody : ∀ t, Total (World.Ready t {} keys w.opening) (body t)
      (fun answer w' => ∃ tx left, Q answer tx left ∧ World.Ready t tx keys left w')
      (fun e w' => ∃ tx left, E e left ∧ World.Ready t tx keys left w'))
    (hanswer : ∀ {answer tx left}, Q answer tx left →
      (∃ ids, left = { w.opening with ids := ids }) ∧ written (w.store.absorb tx) ∧
      f answer = (do mode.emitAll (mode.pending order correlation); pure a))
    (hfailure : ∀ {e left}, E e left → (∃ ids, left = { w.opening with ids := ids }) ∧
      (∀ order cause, e ≠ .unannounced order cause) ∧ ∀ s, ¬ written s) :
    ∃ r w', (Call.transact body >>= f) w = some (r, w') ∧
      Concluded mode order correlation written a w r w' := by
  obtain ⟨r, w₁, htransact, hend⟩ := World.transact_transacted hw hfree hbody
  -- Without a commit the failure is passed on as it is.
  have hfail {e : OperationError} (h : r = .error e) :
      (Call.transact body >>= f) w = some (.error e, w₁) :=
    bind_eq_some_iff.mpr (Or.inr ⟨e, h ▸ htransact, rfl⟩)
  cases hend with
  | notBegun hoffline =>
    refine ⟨_, _, hfail rfl, .undone (by simp) (World.unchanged_nextDisturbance w) (Or.inl ?_)⟩
    intro hcalm
    rw [hcalm.nextDisturbance_eq, hcalm.store] at hoffline
    cases hoffline
  | failed he =>
    obtain ⟨⟨ids, rfl⟩, hknown, hnone⟩ := hfailure he
    have hopening := World.unchanged_opening w
    exact ⟨_, _, hfail rfl, .undone hknown ⟨hopening.store, hopening.queue, hopening.transport⟩
      (Or.inr hnone)⟩
  | @refused answer tx left hq hoffline =>
    obtain ⟨hleft, hcalm⟩ := unchanged_left (hanswer hq).1
    refine ⟨_, _, hfail rfl, .undone (by simp) hleft (Or.inl fun h => ?_)⟩
    rw [(hcalm h).nextDisturbance_eq, (hcalm h).store] at hoffline
    cases hoffline
  | @committed answer tx left hq =>
    obtain ⟨hids, hwritten, hf⟩ := hanswer hq
    obtain ⟨hleft, hcalm⟩ := unchanged_left hids
    have hcommitted := hleft.absorb tx
    rcases emitAll_pending mode order correlation
        { left.nextDisturbance with store := left.nextDisturbance.store.absorb tx } with
      ⟨message, w', hemit, hunchanged⟩ | ⟨cause, w', hemit, hunchanged, hnot⟩
    · have hdone := (unchanged_signalled hcommitted mode order correlation message).trans hunchanged
      refine ⟨.ok a, w', bind_eq_ok_iff.mpr ⟨answer, _, htransact, ?_⟩, .done hwritten hdone⟩
      rw [hf]
      exact bind_eq_ok_iff.mpr ⟨(), w', hemit, rfl⟩
    · refine ⟨.error (.unannounced order cause), w',
        bind_eq_some_iff.mpr (Or.inl ⟨answer, _, htransact, ?_⟩),
        .untold hwritten (hcommitted.trans hunchanged) fun h => hnot ?_⟩
      · rw [hf]
        exact bind_eq_some_iff.mpr (Or.inr ⟨_, hemit, rfl⟩)
      · have hstays := hcalm h
        rw [hstays.nextDisturbance_eq]
        exact ⟨hstays.store, hstays.transport, hstays.disturbances⟩

theorem accept_concluded (mode : PublishMode) (correlation : Option String)
    (hw : w.store.Orderly) (hfree : w.store.Unheld (mode.acceptLocks w.ids)) :
    ∃ r w', mode.accept correlation w = some (r, w') ∧
      Concluded mode ⟨.versionFour w.ids.next⟩ correlation (· = mode.accepted correlation w)
        (⟨.versionFour w.ids.next⟩ : OrderId) w r w' := by
  have hids : w.opening.ids = w.ids := World.nextDisturbance_ids w
  have hnow : w.opening.now = w.now := World.nextDisturbance_now w
  have htx : mode.accepting correlation w.opening = mode.accepting correlation w := by
    unfold accepting
    rw [hids, hnow]
  -- The body does not fail, so nothing has to be said of its failures.
  refine concluded (E := fun _ _ => False) hw hfree
    (fun t => hids ▸ total_stageAccept mode correlation) ?_ ?_
  · intro answer tx left h
    obtain ⟨id, signals⟩ := answer
    obtain rfl : id = ⟨.versionFour w.ids.next⟩ := hids ▸ h.id
    obtain rfl : signals = mode.pending ⟨.versionFour w.ids.next⟩ correlation := hids ▸ h.signals
    refine ⟨h.left, ?_, rfl⟩
    rw [h.tx, htx, absorb_accepting]
  · intro e left h
    exact h.elim

/-- What can be readmitted depends on nothing but the tables. -/
theorem readmissible_iff {s s' : Store} (h : s.SameTables s') {id : OrderId} {o : Order} :
    Readmissible s id o ↔ Readmissible s' id o := by
  constructor
  · intro hr
    exact ⟨h.deadLetters ▸ hr.letter, h.orders ▸ hr.order, hr.status⟩
  · intro hr
    exact ⟨h.deadLetters ▸ hr.letter, h.orders ▸ hr.order, hr.status⟩

/-- The store that a readmission writes, if there is an order to readmit. -/
def ReadmissionWrites (mode : PublishMode) (id : OrderId) (w : World) (s : Store) : Prop :=
  ∃ o, Readmissible w.store id o ∧ s = mode.readmitted id o w

theorem readmit_concluded (mode : PublishMode) (id : OrderId)
    (hw : w.store.Orderly) (hfree : w.store.Unheld (mode.readmitLocks w.ids id)) :
    ∃ r w', mode.readmit id w = some (r, w') ∧
      Concluded mode id none (mode.ReadmissionWrites id w) () w r w' := by
  have hids : w.opening.ids = w.ids := World.nextDisturbance_ids w
  have hnow : w.opening.now = w.now := World.nextDisturbance_now w
  have hsame {o : Order} : Readmissible w.store id o ↔ Readmissible w.opening.store id o :=
    readmissible_iff (World.unchanged_opening w).sameTables
  have hunit : mode.readmit id = (Call.transact (fun t => do
      mode.stageReadmit t id (← Call.now)) >>= fun signals => mode.emitAll signals) := rfl
  rw [hunit]
  refine concluded hw hfree (fun t => hids ▸ total_stageReadmit mode id) ?_ ?_
  · intro signals tx left h
    obtain ⟨o, hid, hfound, htx⟩ := h.found
    refine ⟨h.left, ⟨o, hsame.mpr hfound, ?_⟩, ?_⟩
    · rw [htx, ← absorb_readmitting mode hid w]
      unfold readmitting
      rw [hids, hnow]
    · rw [h.signals, bind_pure_unit]
  · intro e left h
    refine ⟨⟨left.ids, by rw [h.left]⟩, h.known, ?_⟩
    rintro s ⟨o, hfound, -⟩
    exact h.not_readmissible o (hsame.mp hfound)

/-- **Exactly one signal** that `order` needs work.  In outbox mode it is a row
    under the id `row`, a new one unless the id is taken; in memory it is the
    order's id at the end of the queue, which drops it once it is closed; and
    otherwise it is one more message. -/
def OneSignal (mode : PublishMode) (order : OrderId) (correlation : Option String) (row : Uuid)
    (w w' : World) : Prop :=
  let e : OutboxRow := .announcing ⟨row⟩ order correlation w.now
  match mode with
  | .outbox =>
    w'.store.rows = w.store.rows.put ⟨row⟩ e ∧
      (w.store.rows.find? ⟨row⟩ = none → w'.store.rows = w.store.rows ++ [(⟨row⟩, e)]) ∧
      w'.queue = w.queue ∧ w'.transport.messages = w.transport.messages
  | .inMemory =>
    w'.store.rows = w.store.rows ∧
      (w.queue.closed = false →
        w'.queue = { w.queue with items := w.queue.items ++ [order] }) ∧
      (w.queue.closed = true → w'.queue = w.queue) ∧
      w'.transport.messages = w.transport.messages
  | .transport =>
    w'.store.rows = w.store.rows ∧ w'.queue = w.queue ∧
      ∃ id, w'.transport.messages =
        w.transport.messages ++ [{ id := id, message := Signal.toMessage ⟨order, correlation⟩ }]

theorem oneSignal_of_unchanged {mode : PublishMode} {order : OrderId}
    {correlation : Option String} {row message : Uuid} {s : Store} {w' : World}
    (hrows : s.rows = w.store.rows)
    (h : (mode.signalled order correlation message
      { w with store := mode.enrol s row order correlation w.now }).Unchanged w') :
    mode.OneSignal order correlation row w w' := by
  have htables := h.sameTables.rows
  have hqueue := h.queue
  obtain ⟨b, htransport⟩ := h.transport
  cases mode with
  | outbox =>
    have hput : w'.store.rows =
        w.store.rows.put ⟨row⟩ (.announcing ⟨row⟩ order correlation w.now) := hrows ▸ htables.symm
    refine ⟨hput, fun hnew => ?_, hqueue, by rw [htransport]; rfl⟩
    rw [hput, Table.put_of_find?_none hnew]
  | inMemory =>
    refine ⟨htables.symm.trans hrows, fun hopen => ?_, fun hclosed => ?_, by rw [htransport]; rfl⟩
    · rw [hqueue]
      exact if_neg (by simp [hopen])
    · rw [hqueue]
      exact if_pos hclosed
  | transport =>
    exact ⟨htables.symm.trans hrows, hqueue, message, by rw [htransport]; rfl⟩

end PublishMode

/-- **The same case**: the same store, the same time and the same ids to come.
    What is available may differ, and what others are about to do. -/
structure World.SameCase (w v : World) : Prop where
  store : ∃ b, v.store = { w.store with available := b }
  ids : v.ids = w.ids
  now : v.now = w.now

/-- **All or nothing.**  A call that fails has changed nothing.  The exception
    is an order that is committed and was not announced: there the tables
    are the ones that the call leaves whenever it succeeds in the same case,
    which it may do, and nobody has been told. -/
structure AllOrNothing {α : Type} (call : Call α) (w : World) (r : Except OperationError α)
    (w' : World) : Prop where
  nothing : ∀ e, r = .error e → (∀ order cause, e ≠ .unannounced order cause) → w.Unchanged w'
  all : ∀ order cause, r = .error (.unannounced order cause) →
    (∃ v a v', w.SameCase v ∧ call v = some (.ok a, v')) ∧
    (∀ v a v', w.SameCase v → call v = some (.ok a, v') → v'.store.SameTables w'.store) ∧
    w'.store.locks = w.store.locks ∧ w'.queue = w.queue ∧
    w'.transport.messages = w.transport.messages

namespace World

variable {w v : World}

/-- The same world with everything available and nobody about to disturb. -/
def calmed (w : World) : World :=
  { w with
    store := { w.store with available := true }
    transport := { w.transport with available := true }
    disturbances := [] }

theorem calm_calmed (w : World) : w.calmed.Calm :=
  ⟨rfl, rfl, rfl⟩

theorem sameCase_calmed (w : World) : w.SameCase w.calmed :=
  ⟨⟨true, rfl⟩, rfl, rfl⟩

theorem SameCase.orderly (h : w.SameCase v) (hw : w.store.Orderly) : v.store.Orderly := by
  obtain ⟨b, hb⟩ := h.store
  rw [hb]
  exact hw.setAvailable b

theorem SameCase.sameTables (h : w.SameCase v) : w.store.SameTables v.store := by
  obtain ⟨b, hb⟩ := h.store
  rw [hb]
  exact ⟨rfl, rfl, rfl⟩

theorem SameCase.unheld (h : w.SameCase v) {keys : List LockKey} (hfree : w.store.Unheld keys) :
    v.store.Unheld keys := by
  obtain ⟨b, hb⟩ := h.store
  rw [hb]
  exact hfree

end World

open PublishMode in
/-- Calls that conclude in the same way in the same case are all or nothing. -/
theorem allOrNothing {α : Type} {mode : PublishMode} {order : OrderId}
    {correlation : Option String} (written : World → Store → Prop) {a : α} {call : Call α}
    {w w' : World} {r : Except OperationError α}
    (hcase : ∀ {v}, w.SameCase v → ∃ r v', call v = some (r, v') ∧
      Concluded mode order correlation (written v) a v r v')
    (hwritten : ∀ {v s}, w.SameCase v → written w s → ∃ s', written v s')
    (hsame : ∀ {v s s'}, w.SameCase v → written w s → written v s' → s'.SameTables s)
    (hlocks : ∀ {s}, written w s → s.locks = w.store.locks)
    (hcall : call w = some (r, w')) (h : Concluded mode order correlation (written w) a w r w') :
    AllOrNothing call w r w' where
  nothing := by
    intro e he hknown
    cases h with
    | undone _ hunchanged _ => exact hunchanged
    | untold =>
      cases he
      exact absurd rfl (hknown _ _)
    | done => cases he
  all := by
    intro order' cause he
    cases h with
    | undone hknown _ _ =>
      cases he
      exact absurd rfl (hknown _ _)
    | done => cases he
    | @untold s _ _ hs hunchanged _ =>
      refine ⟨?_, ?_, ?_, hunchanged.queue, ?_⟩
      · obtain ⟨r', v', hv, hend⟩ := hcase (World.sameCase_calmed w)
        obtain ⟨s', hs'⟩ := hwritten (World.sameCase_calmed w) hs
        cases hend with
        | undone _ _ hreason =>
          rcases hreason with hnot | hnone
          · exact absurd (World.calm_calmed w) hnot
          · exact absurd hs' (hnone s')
        | untold _ _ hnot => exact absurd (World.calm_calmed w) hnot
        | done => exact ⟨_, a, v', World.sameCase_calmed w, hv⟩
      · intro v a' v' hv hok
        obtain ⟨r', v'', hv', hend⟩ := hcase hv
        rw [hok] at hv'
        cases hv'
        cases hend with
        | @done s' message _ hs' hdone =>
          have htables := hdone.sameTables
          rw [signalled_store] at htables
          exact htables.symm.trans ((hsame hv hs hs').trans hunchanged.sameTables)
      · obtain ⟨b, n, hstore⟩ := hunchanged.store
        rw [hstore]
        show s.locks = w.store.locks
        exact hlocks hs
      · obtain ⟨b, htransport⟩ := hunchanged.transport
        rw [htransport]

namespace PublishMode

variable {mode : PublishMode} {w v : World}

theorem enrol_orders (mode : PublishMode) (s : Store) (row : Uuid) (order : OrderId)
    (correlation : Option String) (now : Instant) :
    (mode.enrol s row order correlation now).orders = s.orders := by
  cases mode <;> rfl

theorem enrol_deadLetters (mode : PublishMode) (s : Store) (row : Uuid) (order : OrderId)
    (correlation : Option String) (now : Instant) :
    (mode.enrol s row order correlation now).deadLetters = s.deadLetters := by
  cases mode <;> rfl

theorem enrol_locks (mode : PublishMode) (s : Store) (row : Uuid) (order : OrderId)
    (correlation : Option String) (now : Instant) :
    (mode.enrol s row order correlation now).locks = s.locks := by
  cases mode <;> rfl

/-- What an announcement adds depends on nothing but the tables. -/
theorem enrol_sameTables (mode : PublishMode) {s s' : Store} (h : s.SameTables s') (row : Uuid)
    (order : OrderId) (correlation : Option String) (now : Instant) :
    (mode.enrol s row order correlation now).SameTables
      (mode.enrol s' row order correlation now) := by
  refine ⟨?_, ?_, ?_⟩
  · rw [enrol_orders, enrol_orders, h.orders]
  · cases mode with
    | outbox =>
      show s.rows.put _ _ = s'.rows.put _ _
      rw [h.rows]
    | inMemory | transport => exact h.rows
  · rw [enrol_deadLetters, enrol_deadLetters, h.deadLetters]

theorem accepted_sameTables (h : w.SameCase v) (correlation : Option String) :
    (mode.accepted correlation v).SameTables (mode.accepted correlation w) := by
  obtain ⟨b, hb⟩ := h.store
  unfold accepted
  rw [h.ids, h.now, hb]
  apply enrol_sameTables
  exact ⟨rfl, rfl, rfl⟩

theorem readmitted_sameTables (h : w.SameCase v) (id : OrderId) (o : Order) :
    (mode.readmitted id o v).SameTables (mode.readmitted id o w) := by
  obtain ⟨b, hb⟩ := h.store
  unfold readmitted
  rw [h.ids, h.now, hb]
  apply enrol_sameTables
  exact ⟨rfl, rfl, rfl⟩

section operations
variable {w' : World} {correlation : Option String} {id : OrderId}

theorem accept_allOrNothing {r : Except OperationError OrderId} (hw : w.store.Orderly)
    (hfree : w.store.Unheld (mode.acceptLocks w.ids))
    (hcall : mode.accept correlation w = some (r, w'))
    (h : Concluded mode ⟨.versionFour w.ids.next⟩ correlation (· = mode.accepted correlation w)
      ⟨.versionFour w.ids.next⟩ w r w') :
    AllOrNothing (mode.accept correlation) w r w' := by
  refine allOrNothing (fun v s => s = mode.accepted correlation v) ?_ ?_ ?_ ?_ hcall h
  · intro v hv
    have hfree' := hv.unheld hfree
    rw [← hv.ids] at hfree' ⊢
    exact accept_concluded mode correlation (hv.orderly hw) hfree'
  · intro v s hv _
    exact ⟨_, rfl⟩
  · rintro v s s' hv rfl rfl
    exact accepted_sameTables hv correlation
  · rintro s rfl
    exact enrol_locks _ _ _ _ _ _

theorem accept_ok {answer : OrderId}
    (h : Concluded mode ⟨.versionFour w.ids.next⟩ correlation (· = mode.accepted correlation w)
      ⟨.versionFour w.ids.next⟩ w (.ok answer) w') :
    w'.store.orders = w.store.orders.put answer (.fresh answer w.now) ∧
      w'.store.deadLetters = w.store.deadLetters ∧
      mode.OneSignal answer correlation (.versionFour (w.ids.next + 1)) w w' := by
  cases h with
  | @done s message _ hs hdone =>
    obtain rfl := hs
    have htables := hdone.sameTables
    rw [signalled_store] at htables
    refine ⟨?_, ?_, oneSignal_of_unchanged ?_ hdone⟩
    · rw [← htables.orders]
      exact enrol_orders _ _ _ _ _ _
    · rw [← htables.deadLetters]
      exact enrol_deadLetters _ _ _ _ _ _
    · rfl

theorem readmit_allOrNothing {r : Except OperationError Unit} (hw : w.store.Orderly)
    (hfree : w.store.Unheld (mode.readmitLocks w.ids id))
    (hcall : mode.readmit id w = some (r, w'))
    (h : Concluded mode id none (mode.ReadmissionWrites id w) () w r w') :
    AllOrNothing (mode.readmit id) w r w' := by
  refine allOrNothing (mode.ReadmissionWrites id) ?_ ?_ ?_ ?_ hcall h
  · intro v hv
    have hfree' := hv.unheld hfree
    rw [← hv.ids] at hfree'
    exact readmit_concluded mode id (hv.orderly hw) hfree'
  · rintro v s hv ⟨o, ho, rfl⟩
    exact ⟨_, o, (readmissible_iff hv.sameTables).mp ho, rfl⟩
  · rintro v s s' hv ⟨o, ho, rfl⟩ ⟨o', ho', rfl⟩
    have hfound := (readmissible_iff hv.sameTables).mpr ho'
    have hsame : o' = o := Option.some.inj (hfound.order.symm.trans ho.order)
    rw [hsame]
    exact readmitted_sameTables hv id o
  · rintro s ⟨o, ho, rfl⟩
    exact enrol_locks _ _ _ _ _ _

theorem readmit_ok
    (h : Concluded mode id none (mode.ReadmissionWrites id w) () w (.ok ()) w') :
    (∃ o, w.store.orders.find? id = some o ∧ o.status = .failed ∧
        w'.store.orders = w.store.orders.put id (o.moved w.now (.reset readmitReason))) ∧
      w'.store.deadLetters = w.store.deadLetters.erase id ∧
      mode.OneSignal id none (.versionFour w.ids.next) w w' := by
  cases h with
  | @done s message _ hs hdone =>
    obtain ⟨o, ho, rfl⟩ := hs
    have htables := hdone.sameTables
    rw [signalled_store] at htables
    refine ⟨⟨o, ho.order, ho.status, ?_⟩, ?_, oneSignal_of_unchanged ?_ hdone⟩
    · rw [← htables.orders]
      exact enrol_orders _ _ _ _ _ _
    · rw [← htables.deadLetters]
      exact enrol_deadLetters _ _ _ _ _ _
    · rfl

end operations

end PublishMode

/-- **An attempt that fails has changed nothing.** -/
theorem process_undone {w : World} (id : OrderId) (maxRetries : Nat) (hw : w.store.Orderly)
    (hfree : w.store.Unheld (processLocks id)) :
    ∃ r w', process id maxRetries w = some (r, w') ∧ ∀ e, r = .error e → w.Unchanged w' := by
  have hbody (t : TxId) : Total (World.Ready t {} (processLocks id) w.opening)
      (do processIn t id (← Call.now) maxRetries)
      (fun _ => World.Undoable t (processLocks id) w.opening)
      (fun _ => World.Undoable t (processLocks id) w.opening) :=
    World.gives_now.bind (total_processIn id)
  obtain ⟨r, w', hcall, hend⟩ := World.transact_transacted
    (Q := fun _ _ left => w.opening.Unchanged left) (E := fun _ left => w.opening.Unchanged left)
    hw hfree hbody
  refine ⟨r, w', hcall, ?_⟩
  intro e he
  have hopening := World.unchanged_opening w
  cases hend with
  | notBegun => exact World.unchanged_nextDisturbance w
  | failed hleft => exact hopening.trans hleft
  | refused hleft _ => exact (hopening.trans hleft).trans (World.unchanged_nextDisturbance _)
  | committed => cases he

/-- **Operations are all or nothing.**  From any store in order, whatever is
    available or will be, whatever the processor does, and as long as nobody
    else holds a row that is needed:

    * accepting an order has an outcome; it is all or nothing, and with an
      answer a fresh order is in the tables and there is one signal for it;
    * readmitting an order has an outcome; it is all or nothing, and with an
      answer the order that was given up on is pending again, its dead letter
      is gone, and there is one signal for it;
    * an attempt on an order has an outcome, and one that fails has changed
      nothing. -/
theorem operations_all_or_nothing (w : World) (hw : w.store.Orderly) :
    (∀ (mode : PublishMode) (correlation : Option String),
      w.store.Unheld (mode.acceptLocks w.ids) →
      ∃ r w', mode.accept correlation w = some (r, w') ∧
        AllOrNothing (mode.accept correlation) w r w' ∧
        ∀ id, r = .ok id → w'.store.orders = w.store.orders.put id (.fresh id w.now) ∧
          w'.store.deadLetters = w.store.deadLetters ∧
          mode.OneSignal id correlation (.versionFour (w.ids.next + 1)) w w') ∧
    (∀ (mode : PublishMode) (id : OrderId), w.store.Unheld (mode.readmitLocks w.ids id) →
      ∃ r w', mode.readmit id w = some (r, w') ∧ AllOrNothing (mode.readmit id) w r w' ∧
        (r = .ok () → (∃ o, w.store.orders.find? id = some o ∧ o.status = .failed ∧
            w'.store.orders =
              w.store.orders.put id (o.moved w.now (.reset PublishMode.readmitReason))) ∧
          w'.store.deadLetters = w.store.deadLetters.erase id ∧
          mode.OneSignal id none (.versionFour w.ids.next) w w')) ∧
    (∀ (id : OrderId) (maxRetries : Nat), w.store.Unheld (processLocks id) →
      ∃ r w', process id maxRetries w = some (r, w') ∧ ∀ e, r = .error e → w.Unchanged w') := by
  refine ⟨?_, ?_, ?_⟩
  · intro mode correlation hfree
    obtain ⟨r, w', hcall, hend⟩ := PublishMode.accept_concluded mode correlation hw hfree
    exact ⟨r, w', hcall, PublishMode.accept_allOrNothing hw hfree hcall hend,
      fun id hr => PublishMode.accept_ok (hr ▸ hend)⟩
  · intro mode id hfree
    obtain ⟨r, w', hcall, hend⟩ := PublishMode.readmit_concluded mode id hw hfree
    exact ⟨r, w', hcall, PublishMode.readmit_allOrNothing hw hfree hcall hend,
      fun hr => PublishMode.readmit_ok (hr ▸ hend)⟩
  · intro id maxRetries hfree
    exact process_undone id maxRetries hw hfree

/-- An order was given up on, and the store will go down just before the
    second of the next calls that it may refuse. -/
def goingDown : World where
  store := {
    orders := [(⟨.ofNat 7⟩, {
      id := ⟨.ofNat 7⟩
      status := .failed
      createdAt := .newYear2024
      updatedAt := .newYear2024
      retryCount := 3
      failureReason := some "declined" })]
    deadLetters := [(⟨.ofNat 7⟩, {
      order := ⟨.ofNat 7⟩
      reason := "declined"
      retryCount := 3
      failedAt := .newYear2024 })] }
  disturbances := [{}, { store := some false }]

/-- The readmission is refused at its commit, after everything was staged. -/
theorem operations_all_or_nothing_going_down : goingDown.store.Orderly ∧
    ∃ w', PublishMode.outbox.readmit ⟨.ofNat 7⟩ goingDown =
        some (.error (.store Store.offline), w') ∧ goingDown.Unchanged w' := by
  have hw : goingDown.store.Orderly :=
    { Store.orderly_empty with
      orders := Table.Keyed.nil.put rfl
      deadLetters := Table.Keyed.nil.put rfl }
  have hfree : goingDown.store.Unheld
      (PublishMode.readmitLocks .outbox goingDown.ids ⟨.ofNat 7⟩) := fun _ _ => rfl
  obtain ⟨r, w', hcall, hall, -⟩ :=
    (operations_all_or_nothing goingDown hw).2.1 .outbox ⟨.ofNat 7⟩ hfree
  have hanswer : (PublishMode.outbox.readmit ⟨.ofNat 7⟩ goingDown).map (·.1) =
      some (.error (.store Store.offline)) := by rfl
  rw [hcall] at hanswer
  obtain rfl : r = .error (.store Store.offline) := Option.some.inj hanswer
  exact ⟨hw, w', hcall, hall.nothing _ rfl (by simp)⟩

end OrderFlow
