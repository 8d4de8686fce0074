import OrderFlow.Proofs.Run.Lockstep
import OrderFlow.Proofs.Run.Served
import OrderFlow.Proofs.Run.Transit

/-! # Routes of delivery

    An order that was accepted comes to the processor on one of four routes:
    from the queue in memory, from its outbox row, from the transport, or from
    its row over the transport.

    On each of them something brings an order up again as long as it is to be
    processed (`Route.Covers`).  So where nothing is left to do all orders are
    settled, and since they have followed the retry machine, it does not
    matter on which route. -/

namespace OrderFlow

open World

/-- A route of delivery. -/
inductive Route where
  /-- A worker takes orders from the queue in memory. -/
  | memory
  /-- A poller processes the orders of outbox rows. -/
  | outbox
  /-- A consumer processes the orders that messages name. -/
  | transport
  /-- A forwarder sends outbox rows to a consumer. -/
  | relay
  deriving DecidableEq

namespace Route

/-- How orders are announced on the route. -/
def mode : Route → PublishMode
  | .memory => .inMemory
  | .outbox | .relay => .outbox
  | .transport => .transport

/-- **What is done on the route**, with `m` failures before an order is given up
    on.  Batch sizes, delays, retry policies and leases are free. -/
def Allows (m : Nat) : Route → Deed → Prop
  | route, .accept mode _ => mode = route.mode
  | _, .wait => True
  | .memory, .round q => q.maxRetries = m
  | .outbox, .release | .outbox, .lease => True
  | .outbox, .settle p => p.maxRetries = m
  | .relay, .release | .relay, .lease | .relay, .forward _ => True
  | .transport, .consume c | .relay, .consume c => c.maxRetries = m
  | _, _ => False

/-- **Nothing is left to do** on the route. -/
def Done (w : World) : Route → Prop
  | .memory => w.queue.items = []
  | .outbox => ∀ e ∈ w.store.listRows, e.status.isSettled
  | .transport => w.transport.messages = []
  | .relay => (∀ e ∈ w.store.listRows, e.status.isSettled) ∧ w.transport.messages = []

section allows
variable {m : Nat} {route : Route} {d : Deed}

theorem Allows.isPlain (h : route.Allows m d) : d.IsPlain m := by
  cases d with
  | accept | release | lease | forward | wait => trivial
  | round | settle | consume => cases route <;> first | exact h | exact h.elim
  | readmit | process | others => cases route <;> exact h.elim

theorem Allows.inOutbox (h : Route.outbox.Allows m d) : d.InOutbox := by
  cases d with
  | accept | round | process | forward | consume => exact h
  | readmit => exact h.elim
  | release | lease | settle | wait | others => trivial

theorem Allows.onTransport (h : route.Allows m d) (hroute : route = .transport ∨ route = .relay) :
    d.OnTransport := by
  cases d with
  | accept mode r =>
    obtain rfl : mode = route.mode := by cases route <;> exact h
    rcases hroute with rfl | rfl <;> simp [Deed.OnTransport, mode]
  | round | settle => rcases hroute with rfl | rfl <;> exact h.elim
  | readmit => cases route <;> exact h.elim
  | _ => trivial

end allows

end Route

/-! ## The queue in memory -/

section turns
variable {w w' w₁ : World} {claimed claimed' : List OutboxRow} {d : Deed} {m : Nat}
  {script : OrderId → Nat → Option String} {route : Route} {mail mail' : Mail}

/-- **Orders that are to be processed are in the queue**, and no row is claimed. -/
structure World.InQueue (w : World) (claimed : List OutboxRow) : Prop where
  unclaimed : claimed = []
  opened : w.queue.closed = false
  waiting : ∀ {id o}, w.store.orders.find? id = some o → o.status = .pending →
    id ∈ w.queue.items

/-- **One turn** leaves them there. -/
theorem Turn.inQueue (h : Turn (w, claimed) d (w', claimed')) (hd : Route.memory.Allows m d)
    (hw : w.InQueue claimed) (hsteady : w.Steady) (horderly : w.store.Orderly) :
    w'.InQueue claimed' := by
  cases h with
  | @accept _ _ _ mode _ _ h =>
    obtain rfl : mode = .inMemory := hd
    rcases PublishMode.accept_ends horderly h with
      ⟨-, hrefused, -⟩ | ⟨id, now, tx, w₁, r₁, -, -, hwrote, hraises, -, hemits, -⟩
    · exact absurd hsteady hrefused
    cases hemits with
    | queued _ =>
      have hqueue : w₁.queue = w.queue := hwrote.around.queue
      have hitems : (w₁.queue.push id).items = w.queue.items ++ [id] := by
        rw [hqueue, Queue.items_push hw.opened]
      have hclosed : (w₁.queue.push id).closed = w.queue.closed := by
        rw [Queue.closed_push, hqueue]
      refine ⟨hw.unclaimed, hclosed.trans hw.opened, fun {i o} ho hpending => ?_⟩
      show i ∈ (w₁.queue.push id).items
      rw [hitems]
      have horders : w₁.store.orders.find? i = some o := ho
      rw [hwrote.orders, hraises.order] at horders
      split at horders
      · next hid => simp [← hid]
      · exact List.mem_append_left _ (hw.waiting horders hpending)
    | noted hmode | sent hmode | untold hmode => cases hmode
  | round h =>
    obtain ⟨_, _, _, -, htakes⟩ := QueueReader.round_takes h
    obtain ⟨-, hserves, hclosed, hwaiting⟩ := htakes.serves horderly hsteady
    refine ⟨hw.unclaimed, hclosed.trans hw.opened, fun {i o'} ho' hpending => ?_⟩
    rcases hserves.origin ho' with hnew | ⟨o, ho, hbefore⟩
    · cases hnew
    · exact hwaiting hw.opened i (hw.waiting ho (hbefore hpending)) o' ho' hpending
  | wait clock => exact ⟨hw.unclaimed, hw.opened, hw.waiting⟩
  | readmit | process | release | lease | noLease | settle | giveUp | forward | consume | others =>
    exact hd.elim

/-! ## The transport -/

/-- **What a turn does to messages** that name orders: it keeps them, sends new
    ones, and of those that it delivers the order is tried. -/
structure World.Conveys (w w' : World) : Prop where
  messages : ∀ x ∈ w'.transport.messages, ∀ id, Payload.Announces x.message.body id →
    x ∈ w.transport.messages ∨
    (x.receiveCount = 0 ∧ (w'.store.orders.find? id).isSome) ∨
    ∃ x₀ ∈ w.transport.messages, x₀.message = x.message ∧
      x.receiveCount = x₀.receiveCount + 1 ∧
      ∀ o', w'.store.orders.find? id = some o' → o'.status = .pending →
        w'.processor.calls.count id = w.processor.calls.count id + 1
  deadLetters : ∀ x ∈ w'.transport.deadLetters, x ∈ w.transport.deadLetters ∨
    x ∈ w.transport.messages ∧ w.transport.maxReceives ≤ x.receiveCount
  maxReceives : w'.transport.maxReceives = w.transport.maxReceives

/-- **Delivered**: no message about an order was received more often than the
    order was tried, so it becomes a dead letter only after the order has. -/
structure World.Delivered (w : World) (route : Route) (m : Nat) (mail : Mail) : Prop where
  enough : m ≤ w.transport.maxReceives
  rows : ∀ {row e}, w.store.rows.find? row = some e → route.mode = .outbox ∧
    (w.store.orders.find? e.order).isSome ∧ e.status ≠ .failed
  known : ∀ {id}, (w.store.orders.find? id).isSome →
    (∃ row e, w.store.rows.find? row = some e ∧ e.order = id) ∨ mail.Told id
  queued : ∀ x ∈ w.transport.messages, ∀ id, Payload.Announces x.message.body id →
    ∃ o, w.store.orders.find? id = some o ∧
      (o.status = .pending → x.receiveCount ≤ w.processor.calls.count id)
  dead : ∀ x ∈ w.transport.deadLetters, ∀ id, Payload.Announces x.message.body id →
    ∃ o, w.store.orders.find? id = some o ∧ o.status ≠ .pending

theorem conveys_of_around (h : Around w w') : Conveys w w' where
  messages _ hx _ _ := Or.inl (h.messages ▸ hx)
  deadLetters _ hx := Or.inl (h.deadLetters ▸ hx)
  maxReceives := h.onlyTakes.maxReceives

/-- A poll of the transport. -/
theorem MessageConsumer.Consumes.conveys {c : MessageConsumer} (h : c.Consumes w w') :
    Conveys w w' := by
  -- Messages that are still there, by where they come from.
  have hmessages {receipt : Uuid} {found : Option Delivery} {t : Transport}
      (hreceives : w.transport.Receives receipt found t) (htakes : t.OnlyTakes w'.transport)
      (hdelivered : ∀ d, found = some d → ∀ id, Payload.Announces d.message.body id →
        ∀ o', w'.store.orders.find? id = some o' → o'.status = .pending →
          w'.processor.calls.count id = w.processor.calls.count id + 1) : Conveys w w' := by
    refine ⟨fun x hx id hannounces => ?_, fun x hx => ?_, ?_⟩
    · rcases hreceives.origin (htakes.messages hx) with
        hold | ⟨x₀, hx₀, hparcel, -, hcount, -, hfound⟩
      · exact Or.inl hold
      · have hmessage : x₀.message = x.message := (congrArg Prod.snd hparcel).symm
        refine Or.inr (Or.inr ⟨x₀, hx₀, hmessage, hcount, ?_⟩)
        exact hdelivered _ hfound id (by rw [hmessage]; exact hannounces)
    · rw [htakes.deadLetters] at hx
      exact hreceives.spent hx
    · rw [htakes.maxReceives, hreceives.settings.2]
  cases h with
  | idle hreceives htakes _ hnone =>
    exact hmessages hreceives htakes fun d hd id hannounces =>
      absurd hannounces (hnone d hd id)
  | attended hreceives htakes hnames hattends =>
    refine hmessages hreceives htakes fun d hd id hannounces o' ho' hpending => ?_
    cases hd
    obtain rfl := hnames id hannounces
    cases hattends with
    | idle hsame hsettled =>
      rw [hsame.orders] at ho'
      exact absurd hpending (hsettled o' ho')
    | tried hid htried => simp [htried.called, hid]

/-- A message is sent about an order that there is. -/
theorem conveys_of_sent {w₀ : World} {m : Message}
    {r : Except OperationError (Except TransportError Uuid)} (hbefore : Around w w₀)
    (hsteady : w₀.Steady) (h : Call.trySend m w₀ = some (r, w₁)) (hafter : Around w₁ w')
    (hnames : ∀ id, Payload.Announces m.body id → (w'.store.orders.find? id).isSome) :
    Conveys w w' := by
  obtain ⟨-, hw₁⟩ := Call.trySend_steady hsteady h
  refine ⟨fun x hx id hannounces => ?_, fun x hx => ?_, ?_⟩
  · rw [hafter.messages, hw₁] at hx
    rcases List.mem_append.mp hx with hold | hnew
    · exact Or.inl (hbefore.messages ▸ hold)
    · rw [List.mem_singleton] at hnew
      subst hnew
      exact Or.inr (Or.inl ⟨rfl, hnames id hannounces⟩)
  · rw [hafter.deadLetters, hw₁] at hx
    exact Or.inl (hbefore.deadLetters ▸ hx)
  · rw [hafter.onlyTakes.maxReceives, hw₁]
    exact hbefore.onlyTakes.maxReceives

/-- **Every turn on the transport routes** does that to messages. -/
theorem Turn.conveys (h : Turn (w, claimed) d (w', claimed')) (hplain : d.IsPlain m)
    (hd : d.OnTransport) (horderly : w.store.Orderly) (hsteady : w.Steady)
    (hclaimed : ∀ e ∈ claimed, e.Announces ∧ (w.store.orders.find? e.order).isSome)
    (hlater : Later w w') : Conveys w w' := by
  cases h with
  | @accept _ _ _ mode correlation _ h =>
    rcases PublishMode.accept_ends horderly h with
      ⟨-, hrefused, -⟩ | ⟨id, now, tx, w₁, r₁, -, -, hwrote, hraises, -, hemits, -⟩
    · exact absurd hsteady hrefused
    have hsteady₁ := hwrote.around.steady hsteady
    cases hemits with
    | noted _ => exact conveys_of_around hwrote.around
    | queued hmode => exact absurd hmode hd
    | @sent _ _ _ h =>
      refine conveys_of_sent hwrote.around hsteady₁ h (around_chains.refl w') fun i hi => ?_
      obtain rfl := hi.unique (Signal.announces_toMessage ⟨id, correlation⟩)
      obtain ⟨-, rfl⟩ := Call.trySend_steady hsteady₁ h
      show (w₁.store.orders.find? _).isSome
      rw [hwrote.orders, hraises.order, Order.fresh_id, if_pos rfl]
      rfl
    | untold _ h =>
      obtain ⟨hr, -⟩ := Call.trySend_steady hsteady₁ h
      cases hr
  | release h => exact conveys_of_around (Claimant.release_ended horderly h).around
  | lease h | noLease h => exact conveys_of_around (Claimant.lease_ended horderly h).around
  | @forward _ w₁ _ _ e _ _ _ _ _ _ hsend h =>
    obtain ⟨hannounces, hexists⟩ := hclaimed e List.mem_cons_self
    have horderly₁ := (Call.moves_trySend _ _ _ _ hsend).orderly horderly
    have hended := ForwardingVerdict.settle_ended horderly₁ h
    refine conveys_of_sent (around_chains.refl w) hsteady hsend hended.around fun i hi => ?_
    obtain rfl := hi.unique hannounces.toMessage
    obtain ⟨o, ho⟩ := Option.isSome_iff_exists.mp hexists
    obtain ⟨o', ho', -⟩ := hlater.stays ho
    rw [ho']
    rfl
  | consume h => exact (MessageConsumer.poll_consumes horderly hsteady h).2.conveys
  | wait clock => exact ⟨fun _ hx _ _ => Or.inl hx, fun _ hx => Or.inl hx, rfl⟩
  | readmit | process | others => exact hplain.elim
  | round | settle | giveUp => exact hd.elim

/-- Rows are about orders that there are, and none was given up on. -/
theorem World.Delivered.rows_after (hw : w.Delivered route m mail) (hsteady : w.Steady)
    (hd : route.Allows m d) (hcarries : Carries w claimed d mail' w' claimed') {row : RowId}
    {e' : OutboxRow} (he' : w'.store.rows.find? row = some e') :
    route.mode = .outbox ∧ (w'.store.orders.find? e'.order).isSome ∧ e'.status ≠ .failed := by
  rcases hcarries.rows row with hsame | ⟨e, e₁, he, he₁, horder, -, -, hfailed⟩ |
    ⟨-, e₁, he₁, -, hpending, -, hraised, houtbox⟩
  · rw [hsame] at he'
    obtain ⟨hmode, hexists, hstatus⟩ := hw.rows he'
    exact ⟨hmode, (hcarries.orders _).mpr (Or.inl hexists), hstatus⟩
  · rw [he', Option.some.injEq] at he₁
    subst he₁
    obtain ⟨hmode, hexists, -⟩ := hw.rows he
    rw [horder]
    exact ⟨hmode, (hcarries.orders _).mpr (Or.inl hexists),
      fun hstatus => (hfailed hstatus).2 hsteady⟩
  · rw [he', Option.some.injEq] at he₁
    subst he₁
    refine ⟨?_, (hcarries.orders _).mpr (Or.inr hraised), by simp [hpending]⟩
    cases d with
    | accept mode r =>
      obtain rfl : mode = route.mode := by cases route <;> exact hd
      exact houtbox
    | readmit => cases route <;> exact hd.elim
    | _ => cases hraised

/-- Every order has a row, or a message about it was accepted. -/
theorem World.Delivered.known_after (hw : w.Delivered route m mail) (hsteady : w.Steady)
    (hcarries : Carries w claimed d mail' w' claimed')
    (hgrows : mail.accepted ⊆ mail'.accepted) {id : OrderId}
    (hid : (w'.store.orders.find? id).isSome) :
    (∃ row e, w'.store.rows.find? row = some e ∧ e.order = id) ∨ mail'.Told id := by
  rcases (hcarries.orders id).mp hid with hbefore | hraised
  · rcases hw.known hbefore with ⟨row, e, he, horder⟩ | htold
    · obtain ⟨e', he', horder'⟩ := hcarries.row_stays he
      exact Or.inl ⟨row, e', he', horder'.trans horder⟩
    · exact Or.inr (htold.mono hgrows)
  · rcases hcarries.raised id hraised with hrow | htold | ⟨-, hunsteady⟩
    · exact Or.inl hrow
    · exact Or.inr htold
    · exact absurd hsteady hunsteady

/-- A message was received no more often than its order was tried. -/
theorem World.Delivered.queued_after (hw : w.Delivered route m mail) (hconveys : Conveys w w')
    (hlater : Later w w') {x : HeldMessage} (hx : x ∈ w'.transport.messages) {id : OrderId}
    (hannounces : Payload.Announces x.message.body id) :
    ∃ o, w'.store.orders.find? id = some o ∧
      (o.status = .pending → x.receiveCount ≤ w'.processor.calls.count id) := by
  rcases hconveys.messages x hx id hannounces with
    hold | ⟨hcount, hexists⟩ | ⟨x₀, hx₀, hmessage, hcount, htried⟩
  · obtain ⟨o, ho, hreceived⟩ := hw.queued x hold id hannounces
    obtain ⟨o', ho', hbefore⟩ := hlater.stays ho
    refine ⟨o', ho', fun hpending => ?_⟩
    exact Nat.le_trans (hreceived (hbefore hpending)) (hlater.counts id)
  · obtain ⟨o', ho'⟩ := Option.isSome_iff_exists.mp hexists
    exact ⟨o', ho', fun _ => by omega⟩
  · -- It was delivered just now, and for that the order was tried once more.
    obtain ⟨o, ho, hreceived⟩ := hw.queued x₀ hx₀ id (by rw [hmessage]; exact hannounces)
    obtain ⟨o', ho', hbefore⟩ := hlater.stays ho
    refine ⟨o', ho', fun hpending => ?_⟩
    have hcalled := htried o' ho' hpending
    have hbound := hreceived (hbefore hpending)
    omega

/-- The order of a dead letter is settled. -/
theorem World.Delivered.dead_after (hw : w.Delivered route m mail) (hon : w.OnTrack script m)
    (hm : 0 < m) (horderly : w.store.Orderly) (hconveys : Conveys w w') (hlater : Later w w')
    {x : HeldMessage} (hx : x ∈ w'.transport.deadLetters) {id : OrderId}
    (hannounces : Payload.Announces x.message.body id) :
    ∃ o, w'.store.orders.find? id = some o ∧ o.status ≠ .pending := by
  rcases hconveys.deadLetters x hx with hold | ⟨hqueued, hspent⟩
  · obtain ⟨o, ho, hsettled⟩ := hw.dead x hold id hannounces
    obtain ⟨o', ho', hbefore⟩ := hlater.stays ho
    exact ⟨o', ho', fun hpending => hsettled (hbefore hpending)⟩
  · obtain ⟨o, ho, hreceived⟩ := hw.queued x hqueued id hannounces
    obtain ⟨o', ho', hbefore⟩ := hlater.stays ho
    refine ⟨o', ho', fun hpending => ?_⟩
    -- An order that is to be processed was not tried as often as messages are delivered.
    have hbound := hreceived (hbefore hpending)
    obtain ⟨-, hfew⟩ := hon.pending hm horderly ho (hbefore hpending)
    have henough := hw.enough
    omega

/-- **One turn on the transport routes** keeps messages and orders in step. -/
theorem World.Delivered.turn (hw : w.Delivered route m mail) (hon : w.OnTrack script m)
    (hm : 0 < m) (horderly : w.store.Orderly) (hd : route.Allows m d)
    (hconveys : Conveys w w') (hlater : Later w w')
    (hcarries : Carries w claimed d mail' w' claimed')
    (hgrows : mail.accepted ⊆ mail'.accepted) : w'.Delivered route m mail' where
  enough := by
    rw [hconveys.maxReceives]
    exact hw.enough
  rows := hw.rows_after hon.steady hd hcarries
  known := hw.known_after hon.steady hcarries hgrows
  queued _ hx _ hannounces := hw.queued_after hconveys hlater hx hannounces
  dead _ hx _ hannounces := hw.dead_after hon hm horderly hconveys hlater hx hannounces

end turns

/-! ## All routes -/

/-- **What brings an order up again** on the route, as long as it is to be
    processed, in a run with such deeds so far. -/
inductive Route.Covers (m : Nat) (w : World) (claimed : List OutboxRow) (deeds : List Deed) :
    Route → Prop where
  | memory (h : w.InQueue claimed) : Covers m w claimed deeds .memory
  | outbox (h : w.Lockstep claimed) : Covers m w claimed deeds .outbox
  | delivery {route : Route} {j : Journal} {mail : Mail}
    (hroute : route = .transport ∨ route = .relay) (hmailed : Mailed w j mail)
    (htransit : w.Transit claimed deeds mail) (hdelivered : w.Delivered route m mail) :
    Covers m w claimed deeds route

/-- **A fresh pipeline** where nobody interferes, and where call `k` of the
    processor for the order `id` ends as `script id k` says. -/
structure World.IsFresh (w : World) (script : OrderId → Nat → Option String) : Prop where
  store : w.store = {}
  messages : w.transport.messages = []
  deadLetters : w.transport.deadLetters = []
  queue : w.queue = {}
  calls : w.processor.calls = []
  steady : w.Steady
  answers : ∀ calls id, (w.processor.react calls id).failure = script id (calls.count id)

/-- A pipeline whose processor follows the script, where nothing has happened yet. -/
def World.following (script : OrderId → Nat → Option String) (maxReceives : Nat) : World where
  transport := { visibilityMs := 0, maxReceives }
  processor := { react := fun calls id => { failure := script id (calls.count id) } }

/-- There is a fresh pipeline for every script. -/
theorem World.isFresh_following (script : OrderId → Nat → Option String) (maxReceives : Nat) :
    (following script maxReceives).IsFresh script :=
  ⟨rfl, rfl, rfl, rfl, rfl, ⟨⟨rfl, rfl, rfl⟩, rfl, fun _ _ => rfl⟩, fun _ _ => rfl⟩

section covers
variable {w w' : World} {claimed claimed' : List OutboxRow} {d : Deed} {deeds : List Deed}
  {m : Nat} {script : OrderId → Nat → Option String} {route : Route}

/-- Claimed rows are there. -/
theorem Route.Covers.held (h : route.Covers m w claimed deeds) {e : OutboxRow}
    (he : e ∈ claimed) : (w.store.rows.find? e.id).isSome := by
  cases h with
  | memory h =>
    rw [h.unclaimed] at he
    cases he
  | outbox h =>
    obtain ⟨e', he', -⟩ := h.held e he
    simp [he']
  | delivery _ _ htransit _ =>
    obtain ⟨-, e', he', -⟩ := htransit.held e he
    simp [he']

/-- **One turn** on the route leaves all orders covered. -/
theorem Route.Covers.turn (hw : route.Covers m w claimed deeds)
    (h : Turn (w, claimed) d (w', claimed')) (hd : route.Allows m d) (hon : w.OnTrack script m)
    (hm : 0 < m) (horderly : w.store.Orderly) (hids : w'.ids.Lasts) :
    route.Covers m w' claimed' (deeds ++ [d]) := by
  have hle := h.posts.ids_le horderly
  cases hw with
  | memory hqueue => exact .memory (h.inQueue hd hqueue hon.steady horderly)
  | outbox hlockstep =>
    exact .outbox ((h.advances hd.inOutbox hlockstep horderly hids).lockstep hlockstep hle)
  | @delivery _ j mail hroute hmailed htransit hdelivered =>
    have hkind := hd.onTransport hroute
    obtain ⟨j', mail', hsteps⟩ := h.posts j mail
    have hmailed' := hmailed.steps hsteps
    obtain ⟨htraced, -⟩ := hmailed'.kept hids
    have hgrows := hsteps.grows.1
    have hclaimed (e : OutboxRow) (he : e ∈ claimed) :
        e.Announces ∧ (w.store.orders.find? e.order).isSome := by
      obtain ⟨hannounces, e', he', horder⟩ := htransit.held e he
      obtain ⟨-, hexists, -⟩ := hdelivered.rows he'
      exact ⟨hannounces, horder ▸ hexists⟩
    have hcarries := h.carries hkind htransit horderly hids htraced
    obtain ⟨-, hserves, -⟩ := h.serves hd.isPlain hon horderly hids fun e he =>
      (Route.Covers.delivery hroute hmailed htransit hdelivered).held he
    have hconveys := h.conveys hd.isPlain hkind horderly hon.steady hclaimed hserves.later
    exact .delivery hroute hmailed' (hcarries.transit htransit hgrows hle)
      (hdelivered.turn hon hm horderly hd hconveys hserves.later hcarries hgrows)

/-- **Where nothing is left to do, all orders are settled.** -/
theorem Route.Covers.settled (h : route.Covers m w claimed deeds) (hdone : route.Done w)
    (horderly : w.store.Orderly) (hids : w.ids.Lasts) {id : OrderId} {o : Order}
    (ho : w.store.orders.find? id = some o) : o.status ≠ .pending := by
  intro hpending
  cases h with
  | memory h =>
    have hqueued := h.waiting ho hpending
    rw [show w.queue.items = [] from hdone] at hqueued
    cases hqueued
  | outbox h =>
    obtain ⟨row, e, he, -, hlive⟩ := h.inStep.covered ho hpending
    obtain rfl := horderly.rows.own he
    have hsettled := hdone e (horderly.mem_listRows_iff.mpr he)
    rw [hlive] at hsettled
    cases hsettled
  | @delivery _ j mail hroute hmailed htransit hdelivered =>
    have hempty : w.transport.messages = [] := by
      rcases hroute with rfl | rfl
      · exact hdone
      · exact hdone.2
    -- What was accepted has come to nothing else than a dead letter.
    have htold : ¬ mail.Told id := by
      intro htold
      obtain ⟨x, hx, hannounces⟩ := htold.somewhere hmailed hids ho (by simp [hpending])
      rw [hempty, List.nil_append] at hx
      obtain ⟨o', ho', hsettled⟩ := hdelivered.dead x hx id hannounces
      rw [ho, Option.some.injEq] at ho'
      exact hsettled (ho' ▸ hpending)
    rcases hdelivered.known (by rw [ho]; rfl) with ⟨row, e, he, horder⟩ | hmessage
    · obtain ⟨hmode, -, hnotFailed⟩ := hdelivered.rows he
      obtain rfl := horderly.rows.own he
      rcases hroute with rfl | rfl
      · cases hmode
      · have hsettled := hdone.1 e (horderly.mem_listRows_iff.mpr he)
        cases hstatus : e.status with
        | processed => exact htold (horder ▸ htransit.sent he hstatus)
        | failed => exact hnotFailed hstatus
        | pending | processing => simp [hstatus, Status.isSettled] at hsettled
    · exact htold hmessage

/-- In a fresh pipeline there is no order yet. -/
theorem World.IsFresh.covers (h : w.IsFresh script)
    (hreceives : route = .transport ∨ route = .relay → m ≤ w.transport.maxReceives) :
    route.Covers m w [] [] := by
  have horders (i : OrderId) : w.store.orders.find? i = none := by
    rw [h.store]
    rfl
  have hrows (i : RowId) : w.store.rows.find? i = none := by
    rw [h.store]
    rfl
  have hdelivery (hroute : route = .transport ∨ route = .relay) : route.Covers m w [] [] := by
    refine .delivery hroute (mailed_empty h.store h.messages h.deadLetters)
      (transit_empty h.store) ⟨hreceives hroute, ?_, ?_, ?_, ?_⟩
    · simp [hrows]
    · simp [horders]
    · simp [h.messages]
    · simp [h.deadLetters]
  cases route with
  | memory => exact .memory ⟨rfl, by rw [h.queue], by simp [horders]⟩
  | outbox => exact .outbox (lockstep_empty h.store)
  | transport => exact hdelivery (Or.inl rfl)
  | relay => exact hdelivery (Or.inr rfl)

theorem World.IsFresh.onTrack (h : w.IsFresh script) : w.OnTrack script m := by
  have horders (i : OrderId) : w.store.orders.find? i = none := by
    rw [h.store]
    rfl
  refine ⟨h.steady, h.answers, ?_, fun {id} _ => ⟨?_, ?_⟩, ?_⟩
  · simp [horders]
  · simp [h.calls]
  · rw [h.store]
    rfl
  · simp [horders]

end covers

/-! ## The property -/

section property
variable {w₀ w : World} {claimed : List OutboxRow} {deeds : List Deed} {m : Nat}
  {script : OrderId → Nat → Option String} {route : Route}

/-- **Along a run** on one route all orders are on track and covered, and those
    that were accepted are there. -/
theorem Turns.covered (hm : 0 < m) (hw₀ : w₀.IsFresh script)
    (hreceives : route = .transport ∨ route = .relay → m ≤ w₀.transport.maxReceives)
    (h : Turns (w₀, []) deeds (w, claimed)) (hdeeds : ∀ d ∈ deeds, route.Allows m d)
    (hids : w.ids.Lasts) :
    w.OnTrack script m ∧ route.Covers m w claimed deeds ∧
      ∀ d ∈ deeds, d.Succeeds ∧ ∀ id, d.raised = some id → (w.store.orders.find? id).isSome := by
  refine h.keep (P := fun c deeds => c.1.OnTrack script m ∧ route.Covers m c.1 c.2 deeds ∧
    ∀ d ∈ deeds, d.Succeeds ∧ ∀ id, d.raised = some id → (c.1.store.orders.find? id).isSome)
    hdeeds ?_ (hw₀.store ▸ Store.orderly_empty) hids
    ⟨hw₀.onTrack, hw₀.covers hreceives, by simp⟩
  rintro ⟨w₁, claimed₁⟩ ⟨w₂, claimed₂⟩ deeds d horderly hids hd hturn ⟨hon, hcovers, hraised⟩
  obtain ⟨hundisturbed, hserves, hsucceeds⟩ :=
    hturn.serves hd.isPlain hon horderly hids fun e he => hcovers.held he
  refine ⟨hserves.onTrack hon hm horderly hundisturbed (hturn.posts.ids_le horderly),
    hcovers.turn hturn hd hon hm horderly hids, List.forall_mem_append.mpr ⟨?_, ?_⟩⟩
  · intro d' hd'
    obtain ⟨hsucceeds', hexists⟩ := hraised d' hd'
    refine ⟨hsucceeds', fun id hid => ?_⟩
    obtain ⟨o, ho⟩ := Option.isSome_iff_exists.mp (hexists id hid)
    obtain ⟨o', ho', -⟩ := hserves.later.stays ho
    simp [ho']
  · simp only [List.mem_singleton, forall_eq]
    refine ⟨hsucceeds, fun id hid => ?_⟩
    rw [hid] at hserves
    cases hserves with
    | raised _ _ horders _ _ => simp [horders]

/-- **Where nothing is left to do**, every order is where the machine ends. -/
theorem Turns.standing_end (hm : 0 < m) (hw₀ : w₀.IsFresh script)
    (hreceives : route = .transport ∨ route = .relay → m ≤ w₀.transport.maxReceives)
    (h : Turns (w₀, []) deeds (w, claimed)) (hdeeds : ∀ d ∈ deeds, route.Allows m d)
    (hdone : route.Done w) (hids : w.ids.Lasts) {id : OrderId} {o : Order}
    (ho : w.store.orders.find? id = some o) : w.standing o = .after (script id) m m := by
  obtain ⟨hon, hcovers, -⟩ := h.covered hm hw₀ hreceives hdeeds hids
  have horderly : w.store.Orderly := h.orderly (hw₀.store ▸ Store.orderly_empty)
  obtain ⟨n, hn⟩ := hon.follows ho
  have hsettled : (w.standing o).status ≠ .pending := hcovers.settled hdone horderly hids ho
  rw [hn] at hsettled ⊢
  exact Standing.eq_end_of_settled hm hsettled

/-- **On every route the retry machine is the same.**  Fix how many failures an
    order may have, at least one, and how every call of the processor for
    every order is to end.  In a fresh pipeline where nobody interferes orders
    are accepted and worked on along one route: through the queue in memory,
    the outbox, the transport, or the outbox and the transport, where messages
    are delivered at least as often as orders are tried.  Whatever the batches,
    delays, retry policies, leases and visibility are, and in whichever order
    things happen, every acceptance gives an order, and once nothing is left to
    do every order is where the machine ends:

    * if its first success is call `n`, counted from 0, and `n < m`, it is
      processed with `n` failures counted, no failure reason, `n + 1` calls of
      the processor and no dead letter;
    * if the first `m` calls fail, it is failed with `m` failures counted, `m`
      calls, and one dead letter, which has the reason of the last failure.

    The actions of such a pipeline unfold into turns of such a run. -/
theorem every_route_retries_alike (hm : 0 < m) (hw₀ : w₀.IsFresh script)
    (hreceives : route = .transport ∨ route = .relay → m ≤ w₀.transport.maxReceives)
    (h : Turns (w₀, []) deeds (w, claimed)) (hdeeds : ∀ d ∈ deeds, route.Allows m d)
    (hdone : route.Done w) (hids : w.ids.Lasts) :
    (∀ mode r, Deed.accept mode r ∈ deeds →
      ∃ id, r = .ok id ∧ (w.store.orders.find? id).isSome) ∧
    (∀ id o, w.store.orders.find? id = some o →
      w.standing o = .after (script id) m m ∧
      (∀ n < m, (∀ k < n, script id k ≠ none) → script id n = none →
        w.standing o = {
          status := .processed
          retryCount := n
          failureReason := none
          calls := n + 1
          letter := none }) ∧
      (∀ reason, (∀ k < m, script id k ≠ none) → script id (m - 1) = some reason →
        w.standing o = {
          status := .failed
          retryCount := m
          failureReason := some (tidyReason reason)
          calls := m
          letter := some (tidyReason reason, m) }) ∧
      (w.store.listLetters.filter (·.order = id)).map (fun d => (d.reason, d.retryCount)) =
        (w.standing o).letter.toList) ∧
    ∀ (a : Action) r w', a.Alone w → (∀ d, a.MayDo d → route.Allows m d) →
      a.call w = some (r, w') → Unfolds (route.Allows m) w w' := by
  obtain ⟨-, -, hraised⟩ := h.covered hm hw₀ hreceives hdeeds hids
  have horderly : w.store.Orderly := h.orderly (hw₀.store ▸ Store.orderly_empty)
  refine ⟨fun mode r haccept => ?_, fun id o ho => ?_,
    fun a r w' halone hkinds hcall => Action.unfolds halone hkinds hcall⟩
  · obtain ⟨⟨id, rfl⟩, hexists⟩ := hraised _ haccept
    exact ⟨id, rfl, hexists id rfl⟩
  · have hid : o.id = id := horderly.orders.own ho
    have hend := h.standing_end hm hw₀ hreceives hdeeds hdone hids ho
    refine ⟨hend, fun n hn hfailed hsuccess => ?_, fun reason hfailed hlast => ?_, ?_⟩
    · rw [hend]
      exact Standing.end_of_success hn hfailed hsuccess
    · rw [hend]
      exact Standing.end_of_failures hm hfailed hlast
    · rw [horderly.listLetters_about]
      unfold standing
      rw [hid]
      cases w.store.deadLetters.find? id <;> rfl

end property

/-- Of two orders that are forwarded one fails at both its attempts, and the other
    one at its first. -/
theorem every_route_retries_alike_relayed :
    ∃ w₀ w deeds script, w₀.IsFresh script ∧ Turns (w₀, []) deeds (w, []) ∧
      (∀ d ∈ deeds, Route.relay.Allows 2 d) ∧ Route.relay.Done w ∧ w.ids.Lasts ∧
      (∃ o, w.store.orders.find? ⟨.versionFour 0⟩ = some o ∧ w.standing o = {
        status := .failed
        retryCount := 2
        failureReason := some (tidyReason "refused")
        calls := 2
        letter := some (tidyReason "refused", 2) }) ∧
      ∃ o, w.store.orders.find? ⟨.versionFour 2⟩ = some o ∧ w.standing o = {
        status := .processed
        retryCount := 1
        failureReason := none
        calls := 2
        letter := none } := by
  obtain ⟨script, hscript⟩ : ∃ script : OrderId → Nat → Option String, script =
      fun id k => if id = ⟨.versionFour 0⟩ ∨ k = 0 then some "refused" else none := ⟨_, rfl⟩
  obtain ⟨w₀, hw₀⟩ : ∃ w₀ : World, w₀ = .following script 2 := ⟨_, rfl⟩
  have hfresh : w₀.IsFresh script := hw₀ ▸ World.isFresh_following script 2
  have hplay : (w₀.play [.accept .outbox none, .accept .outbox none, .relay {} .newYear2024,
      .consume { maxRetries := 2 }, .consume { maxRetries := 2 }, .consume { maxRetries := 2 },
      .consume { maxRetries := 2 }]).map (fun w =>
        ((w.store.orders.find? ⟨.versionFour 0⟩).isSome,
          (w.store.orders.find? ⟨.versionFour 2⟩).isSome,
          w.store.listRows.all (·.status.isSettled), w.transport.messages.length, w.ids.next)) =
      some (true, true, true, 0, 10) := by
    rw [hw₀, hscript]
    decide +kernel
  obtain ⟨w, hw, heq⟩ := Option.map_eq_some_iff.mp hplay
  simp only [Prod.mk.injEq] at heq
  obtain ⟨hfirst, hsecond, hrows, hmessages, hnext⟩ := heq
  obtain ⟨o, ho⟩ := Option.isSome_iff_exists.mp hfirst
  obtain ⟨o', ho'⟩ := Option.isSome_iff_exists.mp hsecond
  have hids : w.ids.Lasts := by
    unfold IdSupply.Lasts
    omega
  have hdone : Route.relay.Done w :=
    ⟨List.all_eq_true.mp hrows, List.length_eq_zero_iff.mp hmessages⟩
  obtain ⟨deeds, hturns, hdeeds⟩ : Unfolds (Route.relay.Allows 2) w₀ w := by
    refine World.play_unfolds (fun a ha => ⟨fun _ => ?_, fun d hd => ?_⟩) hw
    all_goals
      simp only [List.mem_cons, List.not_mem_nil, or_false, or_self, or_self_left] at ha
      rcases ha with rfl | rfl | rfl
    · trivial
    · trivial
    · trivial
    all_goals cases d <;> first | exact hd | trivial | (cases hd; rfl)
  have hreceives : w₀.transport.maxReceives = 2 := by
    rw [hw₀]
    rfl
  obtain ⟨-, hall, -⟩ := every_route_retries_alike (by decide) hfresh
    (fun _ => Nat.le_of_eq hreceives.symm) hturns hdeeds hdone hids
  obtain ⟨-, -, hfailed, -⟩ := hall _ o ho
  obtain ⟨-, hprocessed, -, -⟩ := hall _ o' ho'
  refine ⟨w₀, w, deeds, script, hfresh, hturns, hdeeds, hdone, hids, ⟨o, ho, ?_⟩, o', ho', ?_⟩
  · exact hfailed "refused" (fun k _ => by simp [hscript]) (by simp [hscript])
  · refine hprocessed 1 (by decide) (fun k hk => ?_) (by rw [hscript]; decide)
    obtain rfl : k = 0 := by omega
    simp [hscript]

end OrderFlow
