import OrderFlow.Proofs.Announcement
import OrderFlow.Proofs.Run.Machine
import OrderFlow.Proofs.Run.Turn

/-! # Turns follow the machine

    Where nobody interferes, every turn of a pipeline does to the orders what
    the retry machine knows (`Turn.serves`): a new order begins, an order that
    is to be processed is tried once, or orders are left alone.

    For the queue in memory and for the transport it is said as well what
    becomes of the order's place there. -/

namespace OrderFlow

open World Attempt

/-! ## Attempts and rows -/

section calls
variable {w w' : World} {o : Order} {id : OrderId} {m : Nat}

/-- The attempt says whether the order is to be processed afterwards. -/
theorem Order.pending_after_iff {now : Instant} {failure : Option String} :
    (o.after now m failure).status = .pending ↔ o.outcome m failure = .retry := by
  cases failure with
  | none => simp [Order.after, Order.outcome, Transition.target]
  | some reason =>
    by_cases hless : o.retryCount + 1 < m
    · simp [Order.after, Order.outcome, hless, Transition.target]
    · simp [Order.after, Order.outcome, hless, Transition.target]

/-- **An attempt that was committed**, with what else its transaction has
    written. -/
theorem Tries.attends {outcome : Outcome} {called : List OrderId} {tx tx' : Transaction}
    (h : Tries w id m (.ok outcome) called tx) (hwrote : Wrote w called tx' w')
    (horders : ∀ i, w.store.orderIn tx' i = w.store.orderIn tx i)
    (hletters : ∀ i, w.store.letterIn tx' i = w.store.letterIn tx i) :
    Attends w id m w' ∧
      ∀ o', w'.store.orders.find? id = some o' → o'.status = .pending → outcome = .retry := by
  cases h with
  | @passed o ho hstatus =>
    have hsame : SameOrders w w' := by
      refine ⟨fun i => ?_, fun i => ?_, ?_⟩
      · rw [hwrote.orders, horders, Store.orderIn_hold, Store.orderIn_empty]
      · rw [hwrote.letters, hletters, Store.letterIn_hold, Store.letterIn_empty]
      · rw [hwrote.calls, List.append_nil]
    refine ⟨.idle hsame fun o' ho' => ?_, fun o' ho' hpending => ?_⟩
    · rw [ho, Option.some.injEq] at ho'
      exact ho' ▸ hstatus
    · rw [hsame.orders, ho, Option.some.injEq] at ho'
      exact absurd (ho' ▸ hpending) hstatus
  | @tried o now failure ho hid hpending hfailure =>
    subst hid
    subst hfailure
    have hwritten (i : OrderId) : w'.store.orders.find? i =
        if o.id = i then some (o.after now m (w.failure o.id)) else w.store.orders.find? i := by
      rw [hwrote.orders, horders, Store.orderIn_concluded, Store.orderIn_hold,
        Store.orderIn_empty]
      rfl
    refine ⟨.tried rfl ⟨ho, hpending, hwrote.calls, now, hwritten, fun i => ?_⟩,
      fun o' ho' hpending' => ?_⟩
    · rw [hwrote.letters, hletters, Store.letterIn_concluded, Store.letterIn_hold,
        Store.letterIn_empty]
      rfl
    · rw [hwritten, if_pos rfl, Option.some.injEq] at ho'
      exact Order.pending_after_iff.mp (ho' ▸ hpending')

/-- An attempt that has failed found no order. -/
theorem Tries.sameOrders {e : OperationError} {called : List OrderId} {tx : Transaction}
    (h : Tries w id m (.error e) called tx) (hwrote : Wrote w called {} w') :
    SameOrders w w' ∧ w.store.orders.find? id = none := by
  cases h with
  | unknown hnone => exact ⟨hwrote.sameOrders rfl rfl, hnone⟩

/-- **An attempt in a transaction of its own.** -/
theorem process_attends {r : Except OperationError Outcome} (horderly : w.store.Orderly)
    (hw : w.Steady) (h : process id m w = some (r, w')) :
    Undisturbed w w' ∧ Attends w id m w' ∧
      ∀ o', w'.store.orders.find? id = some o' → o'.status = .pending → r = .ok .retry := by
  have hended := process_ended horderly h
  refine ⟨hended.around.undisturbed, ?_⟩
  cases hended with
  | refused _ hsteady => exact absurd hw hsteady
  | failed htries hwrote =>
    obtain ⟨hsame, hnone⟩ := htries.sameOrders hwrote
    refine ⟨.idle hsame (by simp [hnone]), fun o' ho' => ?_⟩
    rw [hsame.orders, hnone] at ho'
    cases ho'
  | committed htries hwrote =>
    obtain ⟨hattends, hretry⟩ := htries.attends hwrote (fun _ => rfl) fun _ => rfl
    exact ⟨hattends, fun o' ho' hpending => congrArg _ (hretry o' ho' hpending)⟩

/-- **A claimed row is settled.** -/
theorem OutboxProcessor.settle_serves {p : OutboxProcessor} {e : OutboxRow} {now : Instant}
    {r : Except OperationError Outcome} (horderly : w.store.Orderly) (hw : w.Steady)
    (hrow : (w.store.rows.find? e.id).isSome) (h : p.settle e now w = some (r, w')) :
    Undisturbed w w' ∧ Serves w p.maxRetries none w' := by
  have hended := OutboxProcessor.settle_ended horderly h
  refine ⟨hended.around.undisturbed, ?_⟩
  cases hended with
  | refused _ hsteady => exact absurd hw hsteady
  | failed hsettles hwrote =>
    cases hsettles with
    | missing hnone => simp [hnone] at hrow
    | failed htries => exact .kept (htries.sameOrders hwrote).1
  | committed hsettles hwrote =>
    cases hsettles with
    | settled htries _ => exact (htries.attends hwrote (by simp) (by simp)).1.serves

/-- **Rows alone are written.** -/
theorem World.Ended.sameOrders {α : Type} {P : OutboxRow → OutboxRow → Prop}
    {r : Except OperationError α} (hw : w.Steady)
    (h : Ended w (fun _ called tx _ => Rewrites w P called tx) r w') :
    Undisturbed w w' ∧ SameOrders w w' := by
  refine ⟨h.around.undisturbed, ?_⟩
  cases h with
  | refused _ hsteady => exact absurd hw hsteady
  | committed hQ hwrote =>
    obtain rfl := hQ.called
    exact hwrote.sameOrders hQ.orders hQ.letters
  | failed hQ hwrote =>
    obtain rfl := hQ.called
    exact hwrote.sameOrders rfl rfl

/-- A row is given up on whose order cannot be processed. -/
theorem OutboxProcessor.giveUp_sameOrders {e : OutboxRow} {now : Instant} {cause : OperationError}
    {r : Except OperationError Unit} (horderly : w.store.Orderly) (hw : w.Steady)
    (h : OutboxProcessor.giveUp e now cause w = some (r, w')) :
    Undisturbed w w' ∧ SameOrders w w' :=
  World.Ended.sameOrders hw
    (ForwardingVerdict.settle_ended (v := .givenUp cause.message) horderly h)

/-- Due rows are leased. -/
theorem Claimant.lease_sameOrders {c : Claimant} {now : Instant}
    {r : Except OperationError (List OutboxRow)} (horderly : w.store.Orderly) (hw : w.Steady)
    (h : c.lease now w = some (r, w')) : Undisturbed w w' ∧ SameOrders w w' := by
  have hended := c.lease_ended horderly h
  refine ⟨hended.around.undisturbed, ?_⟩
  cases hended with
  | refused _ hsteady => exact absurd hw hsteady
  | committed hQ hwrote =>
    obtain ⟨rfl, hleases⟩ := hQ
    have hrewrites := (hleases _ rfl).rewrites
    exact hwrote.sameOrders hrewrites.orders hrewrites.letters
  | failed hQ hwrote =>
    obtain ⟨rfl, -⟩ := hQ
    exact hwrote.sameOrders rfl rfl

/-- **An order is made known.** -/
theorem Emits.steady {mode : PublishMode} {correlation : Option String}
    {r : Except OperationError Unit} (hw : w.Steady) (h : Emits mode id correlation w r w') :
    Undisturbed w w' ∧ SameOrders w w' ∧ r = .ok () ∧ w.ids.next ≤ w'.ids.next := by
  cases h with
  | noted _ =>
    exact ⟨undisturbed_chains.refl w, sameOrders_chains.refl w, rfl, Nat.le_refl _⟩
  | queued _ =>
    exact ⟨undisturbed_of_eq rfl rfl rfl rfl rfl, sameOrders_of_eq rfl rfl, rfl, Nat.le_refl _⟩
  | sent _ h =>
    refine ⟨Call.undisturbed_trySend _ _ _ _ h, ?_, rfl, (Call.moves_trySend _ _ _ _ h).ids⟩
    obtain ⟨-, rfl⟩ := Call.trySend_steady hw h
    exact sameOrders_of_eq rfl rfl
  | untold _ h =>
    obtain ⟨hr, -⟩ := Call.trySend_steady hw h
    cases hr

/-- **An order is accepted**, whoever is told of it. -/
theorem PublishMode.accept_serves {mode : PublishMode} {correlation : Option String}
    {script : OrderId → Nat → Option String} {r : Except OperationError OrderId}
    (horderly : w.store.Orderly) (hw : w.OnTrack script m) (hids : w'.ids.Lasts)
    (h : mode.accept correlation w = some (r, w')) :
    Undisturbed w w' ∧ ∃ id, r = .ok id ∧ Serves w m (some id) w' := by
  rcases PublishMode.accept_ends horderly h with
    ⟨-, hsteady, -⟩ | ⟨id, now, tx, w₁, r₁, rfl, hlt, hwrote, hraises, hletters, hemits, rfl⟩
  · exact absurd hw.steady hsteady
  · obtain ⟨hundisturbed, hsame, rfl, hle⟩ := hemits.steady (hwrote.around.steady hw.steady)
    have hdrawn : w'.ids.HasDrawn (.versionFour w.ids.next) :=
      IdSupply.hasDrawn_versionFour (Nat.lt_of_lt_of_le hlt hle)
    refine ⟨undisturbed_chains.trans hwrote.around.undisturbed hundisturbed, _, rfl, ?_⟩
    -- The id was not drawn before, so there was no such order.
    have hnew : w.store.orders.find? ⟨.versionFour w.ids.next⟩ = none := by
      refine Option.eq_none_iff_forall_ne_some.mpr fun o ho => ?_
      have hlasts := Nat.lt_of_lt_of_le hlt (Nat.le_trans hle hids)
      exact IdSupply.not_hasDrawn (Nat.le_refl _) hlasts (hw.drawn ho)
    have horders (i : OrderId) : w'.store.orders.find? i =
        if ⟨.versionFour w.ids.next⟩ = i then some (.fresh ⟨.versionFour w.ids.next⟩ now)
        else w.store.orders.find? i := by
      rw [hsame.orders, hwrote.orders, hraises.order, Order.fresh_id]
    refine .raised hnew hdrawn horders (fun i => ?_) ?_
    · rw [hsame.letters, hwrote.letters, hletters]
    · rw [hsame.calls, hwrote.calls, List.append_nil]

/-! ## The queue in memory -/

/-- A queue that takes ids puts them last. -/
theorem Queue.items_push {q : Queue} (hopen : q.closed = false) (id : OrderId) :
    (q.push id).items = q.items ++ [id] := by
  unfold Queue.push
  rw [if_neg (by simp [hopen])]

theorem Queue.closed_push (q : Queue) (id : OrderId) : (q.push id).closed = q.closed := by
  unfold Queue.push
  split <;> rfl

/-- **What a look into the queue does**, and what is counted: there is nothing,
    or an order is taken out for an attempt and goes back if there is to be
    another. -/
inductive QueueReader.Takes (q : QueueReader) (stats : Tally) (w : World) :
    Option (OrderId × Except OperationError Outcome) → Tally → World → Prop where
  | nothing {clock : Clock} (hitems : w.queue.items = []) :
    Takes q stats w none stats.addPoll { w with clock := clock }
  | took {rest : List OrderId} {id : OrderId} {r : Except OperationError Outcome} {w₁ : World}
    {clock : Clock} (hitems : w.queue.items = id :: rest)
    (hprocess : process id q.maxRetries { w with queue := { w.queue with items := rest } } =
      some (r, w₁)) :
    Takes q stats w (some (id, r)) (QueueReader.count stats.addPoll.addReceived r)
      { w₁ with
        clock := clock
        queue := if QueueReader.putsBack r then w₁.queue.push id else w₁.queue }

theorem Call.popQueue_eq_some {ms : Nat} {r : Except OperationError (Option OrderId)}
    (h : Call.popQueue (some ms) w = some (r, w')) :
    (w.queue.items = [] ∧ r = .ok none ∧ ∃ clock, w' = { w with clock := clock }) ∨
      ∃ id rest, w.queue.items = id :: rest ∧ r = .ok (some id) ∧
        w' = { w with queue := { w.queue with items := rest } } := by
  unfold Call.popQueue Queue.pop? at h
  cases hitems : w.queue.items with
  | nil =>
    simp only [hitems] at h
    split at h
    · cases h
      exact Or.inl ⟨rfl, rfl, _, rfl⟩
    · cases h
      exact Or.inl ⟨rfl, rfl, _, rfl⟩
  | cons id rest =>
    simp only [hitems] at h
    cases h
    exact Or.inr ⟨id, rest, rfl, rfl, rfl⟩

theorem StopRequest.sleep_eq_some {stop : StopRequest} {ms : Nat}
    {r : Except OperationError Bool} (h : stop.sleep ms w = some (r, w')) :
    ∃ b clock, r = .ok b ∧ w' = { w with clock := clock } := by
  unfold StopRequest.sleep at h
  split at h
  · cases h
    exact ⟨true, w.clock, rfl, rfl⟩
  · split at h
    · cases h
      exact ⟨true, _, rfl, rfl⟩
    · cases h
      exact ⟨false, _, rfl, rfl⟩

theorem QueueReader.round_takes {q : QueueReader} {stop : StopRequest} {stats : Tally}
    {r : Except OperationError (Tally × Bool)} (h : q.round stop stats w = some (r, w')) :
    ∃ found stats' stopped, r = .ok (stats', stopped) ∧ q.Takes stats w found stats' w' := by
  rcases bind_eq_some_iff.mp h with ⟨found, w₁, hpop, hrest⟩ | ⟨cause, hpop, -⟩
  · rcases Call.popQueue_eq_some hpop with
      ⟨hitems, hfound, clock, rfl⟩ | ⟨id, rest, hitems, hfound, rfl⟩
    · cases hfound
      cases hrest
      exact ⟨_, _, _, rfl, .nothing hitems⟩
    · cases hfound
      obtain ⟨result, w₂, hprocess, hend⟩ := outcome_bind_eq_some hrest
      -- Only an order that goes back makes the worker sleep.
      have htakes (clock : Clock) : q.Takes stats w (some (id, result))
          (QueueReader.count stats.addPoll.addReceived result)
          { w₂ with
            clock := clock
            queue := if QueueReader.putsBack result then w₂.queue.push id else w₂.queue } :=
        .took hitems hprocess
      cases hback : QueueReader.putsBack result with
      | false =>
        simp only [hback] at hend htakes
        cases hend
        exact ⟨_, _, _, rfl, htakes w'.clock⟩
      | true =>
        simp only [hback, if_true] at hend htakes
        rcases bind_eq_some_iff.mp hend with ⟨stopped, w₃, hsleep, hpush⟩ | ⟨cause, hsleep, -⟩
        · obtain ⟨b, clock, -, rfl⟩ := StopRequest.sleep_eq_some hsleep
          cases hpush
          exact ⟨_, _, _, rfl, htakes clock⟩
        · obtain ⟨b, clock, hr, -⟩ := StopRequest.sleep_eq_some hsleep
          cases hr
  · rcases Call.popQueue_eq_some hpop with ⟨-, hr, -⟩ | ⟨id, rest, -, hr, -⟩
    · cases hr
    · cases hr

/-- The order is out of the queue before the attempt. -/
theorem process_taken {rest : List OrderId} {id : OrderId} {m : Nat}
    {r : Except OperationError Outcome} (horderly : w.store.Orderly) (hw : w.Steady)
    (h : process id m { w with queue := { w.queue with items := rest } } = some (r, w')) :
    Undisturbed w w' ∧ Attends w id m w' ∧
      (∀ o', w'.store.orders.find? id = some o' → o'.status = .pending → r = .ok .retry) ∧
      w'.queue = { w.queue with items := rest } := by
  obtain ⟨w₀, hw₀⟩ : ∃ w₀ : World, w₀ = { w with queue := { w.queue with items := rest } } :=
    ⟨_, rfl⟩
  rw [← hw₀] at h
  have hbefore : Undisturbed w w₀ := by
    rw [hw₀]
    exact undisturbed_of_eq rfl rfl rfl rfl rfl
  have hstore : w₀.store = w.store := by rw [hw₀]
  have hprocessor : w₀.processor = w.processor := by rw [hw₀]
  obtain ⟨hundisturbed, hattends, hretry⟩ :=
    process_attends (hstore ▸ horderly) (hbefore.steady hw) h
  refine ⟨undisturbed_chains.trans hbefore hundisturbed, ?_, hretry, ?_⟩
  · exact hattends.within (sameOrders_of_eq hstore hprocessor) (by rw [hprocessor])
      (sameOrders_chains.refl _)
  · rw [(process_ended (hstore ▸ horderly) h).around.queue, hw₀]

/-- **A look into the queue** where nobody interferes.  Orders that are to be
    processed stay in the queue, if it takes any. -/
theorem QueueReader.Takes.serves {q : QueueReader} {stats stats' : Tally}
    {found : Option (OrderId × Except OperationError Outcome)} (horderly : w.store.Orderly)
    (hw : w.Steady) (h : q.Takes stats w found stats' w') :
    Undisturbed w w' ∧ Serves w q.maxRetries none w' ∧ w'.queue.closed = w.queue.closed ∧
      (w.queue.closed = false → ∀ id ∈ w.queue.items, ∀ o', w'.store.orders.find? id = some o' →
        o'.status = .pending → id ∈ w'.queue.items) := by
  cases h with
  | nothing hitems =>
    refine ⟨undisturbed_of_eq rfl rfl rfl rfl rfl, .kept (sameOrders_of_eq rfl rfl), rfl, ?_⟩
    simp [hitems]
  | @took rest taken r w₁ clock hitems hprocess =>
    obtain ⟨hundisturbed, hattends, hretry, hqueue⟩ := process_taken horderly hw hprocess
    have hafter : SameOrders w₁ { w₁ with
        clock := clock
        queue := if QueueReader.putsBack r then w₁.queue.push taken else w₁.queue } :=
      sameOrders_of_eq rfl rfl
    refine ⟨?_, (hattends.within (sameOrders_chains.refl w) rfl hafter).serves, ?_,
      fun hopen id hid o' ho' hpending => ?_⟩
    · exact undisturbed_chains.trans hundisturbed (undisturbed_of_eq rfl rfl rfl rfl rfl)
    · show (if QueueReader.putsBack r then w₁.queue.push taken else w₁.queue).closed = _
      split
      · rw [Queue.closed_push, hqueue]
      · rw [hqueue]
    · show id ∈ (if QueueReader.putsBack r then w₁.queue.push taken else w₁.queue).items
      have hopened : w₁.queue.closed = false := by
        rw [hqueue]
        exact hopen
      rw [hitems] at hid
      rcases List.mem_cons.mp hid with rfl | hrest
      · -- The order is still to be processed, so its id goes behind the others.
        have hback : QueueReader.putsBack r = true := by rw [hretry o' ho' hpending]; rfl
        rw [if_pos hback, Queue.items_push hopened]
        exact List.mem_append_right _ List.mem_cons_self
      · split
        · rw [Queue.items_push hopened, hqueue]
          exact List.mem_append_left _ hrest
        · rw [hqueue]
          exact hrest

/-! ## The transport -/

/-- Messages are taken out at most. -/
structure Transport.OnlyTakes (t t' : Transport) : Prop where
  messages : t'.messages ⊆ t.messages
  deadLetters : t'.deadLetters = t.deadLetters
  maxReceives : t'.maxReceives = t.maxReceives

theorem Transport.onlyTakes_chains : Chains Transport.OnlyTakes where
  refl _ := ⟨List.Subset.refl _, rfl, rfl⟩
  trans h₁ h₂ := ⟨List.Subset.trans h₂.messages h₁.messages, h₂.deadLetters.trans h₁.deadLetters,
    h₂.maxReceives.trans h₁.maxReceives⟩

theorem World.Around.onlyTakes (h : Around w w') : w.transport.OnlyTakes w'.transport := by
  obtain ⟨b, hb⟩ := h.transport
  rw [hb]
  exact ⟨List.Subset.refl _, rfl, rfl⟩

/-- **What a poll of the transport does** where nobody interferes: a receive,
    and if the message names an order, that one comes up for an attempt. -/
inductive MessageConsumer.Consumes (c : MessageConsumer) (w w' : World) : Prop where
  | idle {receipt : Uuid} {found : Option Delivery} {t : Transport}
    (hreceives : w.transport.Receives receipt found t) (htakes : t.OnlyTakes w'.transport)
    (hsame : SameOrders w w')
    (hnone : ∀ d, found = some d → ∀ id, ¬ Payload.Announces d.message.body id)
  | attended {receipt : Uuid} {d : Delivery} {t : Transport} {id : OrderId}
    (hreceives : w.transport.Receives receipt (some d) t) (htakes : t.OnlyTakes w'.transport)
    (hnames : ∀ i, Payload.Announces d.message.body i → i = id)
    (hattends : Attends w id c.maxRetries w')

/-- What is known once the transport has answered. -/
theorem Call.receive_undisturbed {waitMs : Nat} {found : Except OperationError (Option Delivery)}
    (hw : w.Steady) (h : Call.receive waitMs w = some (found, w')) :
    Undisturbed w w' ∧ w'.store = w.store ∧ w'.processor = w.processor ∧
      ∃ delivery, found = .ok delivery ∧
        w.transport.Receives (.versionFour w.ids.next) delivery w'.transport := by
  obtain ⟨⟨delivery, hfound, hreceives⟩, hw'⟩ := Call.receive_steady hw h
  exact ⟨Call.undisturbed_receive _ _ _ _ h, by rw [hw'], by rw [hw'], delivery, hfound, hreceives⟩

/-- And once there was an attempt on the order that the message names. -/
theorem Call.receive_attends {waitMs m : Nat} {id : OrderId} {d : Delivery}
    {r : Except OperationError Outcome} (horderly : w.store.Orderly) (hw : w.Steady)
    (hreceive : Call.receive waitMs w = some (.ok (some d), w₁))
    (hprocess : process id m w₁ = some (r, w')) :
    Undisturbed w w' ∧ Attends w id m w' ∧
      w.transport.Receives (.versionFour w.ids.next) (some d) w₁.transport ∧
      w₁.transport.OnlyTakes w'.transport := by
  obtain ⟨hbefore, hstore, hprocessor, delivery, hfound, hreceives⟩ :=
    Call.receive_undisturbed hw hreceive
  cases hfound
  have horderly₁ : w₁.store.Orderly := hstore ▸ horderly
  obtain ⟨hundisturbed, hattends, -⟩ := process_attends horderly₁ (hbefore.steady hw) hprocess
  refine ⟨undisturbed_chains.trans hbefore hundisturbed, ?_, hreceives, ?_⟩
  · exact hattends.within (sameOrders_of_eq hstore hprocessor) (by rw [hprocessor])
      (sameOrders_chains.refl _)
  · exact (process_ended horderly₁ hprocess).around.onlyTakes

theorem MessageConsumer.poll_consumes {c : MessageConsumer} {r : Except OperationError Reception}
    (horderly : w.store.Orderly) (hw : w.Steady) (h : c.poll w = some (r, w')) :
    Undisturbed w w' ∧ c.Consumes w w' := by
  cases MessageConsumer.poll_polls h with
  | refused hreceive =>
    obtain ⟨-, -, -, delivery, hfound, -⟩ := Call.receive_undisturbed hw hreceive
    cases hfound
  | idle hreceive =>
    obtain ⟨hundisturbed, hstore, hprocessor, delivery, hfound, hreceives⟩ :=
      Call.receive_undisturbed hw hreceive
    cases hfound
    exact ⟨hundisturbed, .idle hreceives (Transport.onlyTakes_chains.refl _)
      (sameOrders_of_eq hstore hprocessor) nofun⟩
  | malformed hreceive hp =>
    obtain ⟨hundisturbed, hstore, hprocessor, delivery, hfound, hreceives⟩ :=
      Call.receive_undisturbed hw hreceive
    cases hfound
    refine ⟨hundisturbed, .idle hreceives (Transport.onlyTakes_chains.refl _)
      (sameOrders_of_eq hstore hprocessor) fun d hd id hannounces => ?_⟩
    cases hd
    obtain ⟨correlation, hbody⟩ := hannounces
    rw [hbody] at hp
    cases hp
  | @attempted d p _ _ _ hreceive hp hprocess _ =>
    obtain ⟨hundisturbed, hattends, hreceives, htakes⟩ :=
      Call.receive_attends horderly hw hreceive hprocess
    exact ⟨hundisturbed, .attended hreceives htakes (fun i hi => (hi.order_eq hp).symm) hattends⟩
  | @acknowledged d p _ w₁ w₂ _ hreceive hp hprocess hack =>
    obtain ⟨hundisturbed, hattends, hreceives, htakes⟩ :=
      Call.receive_attends horderly hw hreceive hprocess
    obtain ⟨⟨messages, hsubset, htransport⟩, hw'⟩ :=
      Call.acknowledge_steady (hundisturbed.steady hw) hack
    have hafter : SameOrders w₂ w' := sameOrders_of_eq (by rw [hw']) (by rw [hw'])
    refine ⟨undisturbed_chains.trans hundisturbed (Call.undisturbed_acknowledge _ _ _ _ hack),
      .attended hreceives ?_ (fun i hi => (hi.order_eq hp).symm)
        (hattends.within (sameOrders_chains.refl w) rfl hafter)⟩
    refine Transport.onlyTakes_chains.trans htakes ?_
    rw [htransport]
    exact ⟨hsubset, rfl, rfl⟩

theorem MessageConsumer.Consumes.serves {c : MessageConsumer} (h : c.Consumes w w') :
    Serves w c.maxRetries none w' := by
  cases h with
  | idle _ _ hsame _ => exact .kept hsame
  | attended _ _ _ hattends => exact hattends.serves

end calls

/-! ## Turns -/

/-- **A plain deed**: no outage and no call by hand, and every attempt allows
    fewer than `m` failures before it gives up. -/
def Deed.IsPlain (m : Nat) : Deed → Prop
  | .accept _ _ | .release | .lease | .forward _ | .wait => True
  | .round q => q.maxRetries = m
  | .settle p => p.maxRetries = m
  | .consume c => c.maxRetries = m
  | Deed.readmit _ _ _ | .process _ _ | .others => False

/-- An order that is accepted gets an id. -/
def Deed.Succeeds : Deed → Prop
  | .accept _ r => ∃ id, r = .ok id
  | _ => True

section turns
variable {w w' : World} {claimed claimed' : List OutboxRow} {d : Deed} {m : Nat}
  {script : OrderId → Nat → Option String}

/-- **Every plain turn follows the machine** where nobody interferes. -/
theorem Turn.serves (h : Turn (w, claimed) d (w', claimed')) (hd : d.IsPlain m)
    (hw : w.OnTrack script m) (horderly : w.store.Orderly) (hids : w'.ids.Lasts)
    (hclaimed : ∀ e ∈ claimed, (w.store.rows.find? e.id).isSome) :
    Undisturbed w w' ∧ Serves w m d.raised w' ∧ d.Succeeds := by
  cases h with
  | accept h =>
    obtain ⟨hundisturbed, id, rfl, hserves⟩ := PublishMode.accept_serves horderly hw hids h
    exact ⟨hundisturbed, hserves, id, rfl⟩
  | round h =>
    obtain ⟨_, _, _, -, htakes⟩ := QueueReader.round_takes h
    obtain ⟨hundisturbed, hserves, -⟩ := htakes.serves horderly hw.steady
    exact ⟨hundisturbed, hd ▸ hserves, trivial⟩
  | release h =>
    obtain ⟨hundisturbed, hsame⟩ := (Claimant.release_ended horderly h).sameOrders hw.steady
    exact ⟨hundisturbed, .kept hsame, trivial⟩
  | lease h | noLease h =>
    obtain ⟨hundisturbed, hsame⟩ := Claimant.lease_sameOrders horderly hw.steady h
    exact ⟨hundisturbed, .kept hsame, trivial⟩
  | settle _ h =>
    obtain ⟨hundisturbed, hserves⟩ := OutboxProcessor.settle_serves horderly hw.steady
      (hclaimed _ List.mem_cons_self) h
    exact ⟨hundisturbed, hd ▸ hserves, trivial⟩
  | giveUp _ h hgive =>
    obtain ⟨hbefore, hserves⟩ := OutboxProcessor.settle_serves horderly hw.steady
      (hclaimed _ List.mem_cons_self) h
    have horderly₁ := (OutboxProcessor.settle_ended horderly h).orderly
    obtain ⟨hundisturbed, hsame⟩ := OutboxProcessor.giveUp_sameOrders horderly₁
      (hbefore.steady hw.steady) hgive
    refine ⟨undisturbed_chains.trans hbefore hundisturbed, ?_, trivial⟩
    exact (hd ▸ hserves).andThen hsame
  | @forward _ w₁ _ _ _ _ _ _ _ _ _ hsend h =>
    have hbefore := Call.undisturbed_trySend _ _ _ _ hsend
    obtain ⟨-, hw₁⟩ := Call.trySend_steady hw.steady hsend
    have hsent : SameOrders w w₁ := sameOrders_of_eq (by rw [hw₁]) (by rw [hw₁])
    have horderly₁ := (Call.moves_trySend _ _ _ _ hsend).orderly horderly
    have hended := ForwardingVerdict.settle_ended horderly₁ h
    obtain ⟨hundisturbed, hsame⟩ := hended.sameOrders (hbefore.steady hw.steady)
    exact ⟨undisturbed_chains.trans hbefore hundisturbed,
      .kept (sameOrders_chains.trans hsent hsame), trivial⟩
  | consume h =>
    obtain ⟨hundisturbed, hconsumes⟩ := MessageConsumer.poll_consumes horderly hw.steady h
    exact ⟨hundisturbed, hd ▸ hconsumes.serves, trivial⟩
  | wait clock =>
    exact ⟨undisturbed_of_eq rfl rfl rfl rfl rfl, .kept (sameOrders_of_eq rfl rfl), trivial⟩
  | readmit | process | others => exact hd.elim

end turns

end OrderFlow
