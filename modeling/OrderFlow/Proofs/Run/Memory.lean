import OrderFlow.Proofs.Run.Served

/-! # Orders in the queue in memory

    In memory an order's id is all that says that the order needs work, and it is
    nowhere while a worker makes an attempt.  So what becomes of the id has to
    agree with what was committed, whatever goes wrong: the attempt puts it back
    exactly if the order is still to be processed (`process_putsBack`).

    It follows that the queue holds each order that is to be processed once and
    no other (`World.Queued`).  What a whole run of a worker takes out of the
    queue and puts back is said by `QueueReader.Goes`, for any ids in the
    queue. -/

namespace OrderFlow

open World Attempt

section attempts
variable {w w' : World} {id : OrderId} {m : Nat}

/-! ## Attempts -/

/-- **An attempt on an order that is to be processed** changes that order at
    most, and its id goes back into the queue exactly if it is to be processed
    afterwards, whatever outages there are. -/
theorem process_putsBack {o : Order} {r : Except OperationError Outcome}
    (horderly : w.store.Orderly) (ho : w.store.orders.find? id = some o)
    (hpending : o.status = .pending) (h : process id m w = some (r, w')) :
    ∃ o', (∀ i, w'.store.orders.find? i = if id = i then some o' else w.store.orders.find? i) ∧
      (o'.status = .pending ↔ QueueReader.putsBack r = true) := by
  cases process_ended horderly h with
  | @committed outcome called tx _ htries hwrote =>
    cases htries with
    | passed ho' hstatus =>
      rw [ho, Option.some.injEq] at ho'
      exact absurd (ho' ▸ hpending) hstatus
    | @tried o' now failure ho' hid =>
      refine ⟨o'.after now m failure, fun i => ?_, ?_⟩
      · rw [hwrote.orders, Store.orderIn_concluded, Store.orderIn_hold, Store.orderIn_empty, hid]
      · rw [Order.pending_after_iff]
        cases o'.outcome m failure <;> simp [QueueReader.putsBack]
  | failed htries _ =>
    cases htries with
    | unknown hnone => simp [ho] at hnone
  | refused hwrote _ =>
    -- Nothing was written, and an outage passes.
    obtain ⟨horders, -, -⟩ := hwrote.unchanged
    refine ⟨o, fun i => ?_, iff_of_true hpending rfl⟩
    rw [horders]
    split
    · next hi => rw [← hi, ho]
    · rfl

end attempts

/-! ## Looks into the queue -/

/-- What a worker has taken out of the queue: an order, and how the attempt on it
    has ended. -/
abbrev Taken := OrderId × Except OperationError Outcome

/-- The ids that have gone back into the queue. -/
def putBack (taken : List Taken) : List OrderId :=
  (taken.filter fun x => QueueReader.putsBack x.2).map (·.1)

section looks
variable {w w' : World} {q : QueueReader} {stats stats' : Tally} {found : Option Taken}

/-- What goes back after one look. -/
theorem QueueReader.Takes.items (h : q.Takes stats w found stats' w')
    (hopen : w.queue.closed = false) : w'.queue.closed = false ∧
      w.queue.items ++ putBack found.toList = found.toList.map (·.1) ++ w'.queue.items := by
  cases h with
  | nothing hitems => exact ⟨hopen, by simp [putBack, hitems]⟩
  | @took rest id r w₁ clock hitems hprocess =>
    have hqueue : w₁.queue = { w.queue with items := rest } :=
      (around_process id _ _ _ hprocess).queue
    have hopened : w₁.queue.closed = false := by
      rw [hqueue]
      exact hopen
    cases hback : QueueReader.putsBack r with
    | false => exact ⟨hopened, by simp [putBack, hitems, hback, hqueue]⟩
    | true =>
      have hpushed : (w₁.queue.push id).items = rest ++ [id] := by
        rw [Queue.items_push hopened, hqueue]
      exact ⟨(Queue.closed_push _ _).trans hopened, by simp [putBack, hitems, hback, hpushed]⟩

/-- How often an id is in the queue after one look. -/
theorem QueueReader.Takes.count (h : q.Takes stats w found stats' w')
    (hopen : w.queue.closed = false) (i : OrderId) :
    w.queue.items.count i + (putBack found.toList).count i =
      (found.toList.map (·.1)).count i + w'.queue.items.count i := by
  rw [← List.count_append, (h.items hopen).2, List.count_append]

theorem count_putBack_singleton (id i : OrderId) (r : Except OperationError Outcome) :
    (putBack [(id, r)]).count i = if id = i ∧ QueueReader.putsBack r = true then 1 else 0 := by
  cases hback : QueueReader.putsBack r <;> simp [putBack, hback, List.count_singleton]

end looks

/-! ## The queue and the orders -/

/-- How often an order is to be in the queue: once if it is to be processed. -/
def World.awaited (w : World) (id : OrderId) : Nat :=
  match w.store.orders.find? id with
  | some o => if o.status = .pending then 1 else 0
  | none => 0

/-- **Queued**: the queue is open and holds each order that is to be processed
    once, and no other. -/
structure World.Queued (w : World) : Prop where
  opened : w.queue.closed = false
  drawn : ∀ {id o}, w.store.orders.find? id = some o → w.ids.HasDrawn id.uuid
  count : ∀ id, w.queue.items.count id = w.awaited id

section queued
variable {w w' : World} {id : OrderId} {o : Order}

theorem World.awaited_of_find (ho : w.store.orders.find? id = some o) :
    w.awaited id = if o.status = .pending then 1 else 0 := by
  unfold World.awaited
  rw [ho]

theorem World.awaited_of_none (hnone : w.store.orders.find? id = none) : w.awaited id = 0 := by
  unfold World.awaited
  rw [hnone]

theorem World.awaited_congr (h : w'.store.orders.find? id = w.store.orders.find? id) :
    w'.awaited id = w.awaited id := by
  unfold World.awaited
  rw [h]

/-- Only what is to be processed is in the queue. -/
theorem World.Queued.pending_of_mem (hw : w.Queued) (hid : id ∈ w.queue.items) :
    ∃ o, w.store.orders.find? id = some o ∧ o.status = .pending := by
  have hpositive := List.count_pos_iff.mpr hid
  rw [hw.count] at hpositive
  cases ho : w.store.orders.find? id with
  | none =>
    rw [World.awaited_of_none ho] at hpositive
    cases hpositive
  | some o =>
    rw [World.awaited_of_find ho] at hpositive
    split at hpositive
    · next hpending => exact ⟨o, rfl, hpending⟩
    · cases hpositive

/-- **One order changes**, and its place in the queue as its status says. -/
theorem World.Queued.change (hw : w.Queued) (hopened : w'.queue.closed = false)
    (hids : w.ids.next ≤ w'.ids.next) (hdrawn : w'.ids.HasDrawn id.uuid)
    (horders : ∀ i, w'.store.orders.find? i = if id = i then some o else w.store.orders.find? i)
    (hothers : ∀ i, id ≠ i → w'.queue.items.count i = w.queue.items.count i)
    (hself : w'.queue.items.count id = if o.status = .pending then 1 else 0) : w'.Queued where
  opened := hopened
  drawn := by
    intro i o' ho'
    rw [horders] at ho'
    split at ho'
    · next hi => exact hi ▸ hdrawn
    · exact (hw.drawn ho').mono hids
  count := by
    intro i
    by_cases hi : id = i
    · subst hi
      rw [hself, World.awaited_of_find (by rw [horders, if_pos rfl])]
    · have hsame : w'.awaited i = w.awaited i :=
        World.awaited_congr (by rw [horders, if_neg hi])
      rw [hsame, hothers i hi, hw.count]

/-- **An order comes up** that was not to be processed before. -/
theorem World.Queued.push (hw : w.Queued) (hids : w.ids.next ≤ w'.ids.next)
    (hdrawn : w'.ids.HasDrawn id.uuid) (hstatus : o.status = .pending) (hnew : w.awaited id = 0)
    (horders : ∀ i, w'.store.orders.find? i = if id = i then some o else w.store.orders.find? i)
    (hqueue : w'.queue = w.queue.push id) : w'.Queued := by
  have hitems : w'.queue.items = w.queue.items ++ [id] := by
    rw [hqueue, Queue.items_push hw.opened]
  refine hw.change ?_ hids hdrawn horders (fun i hi => ?_) ?_
  · rw [hqueue, Queue.closed_push, hw.opened]
  · rw [hitems, List.count_append, List.count_singleton, if_neg (by simpa using hi), Nat.add_zero]
  · rw [hitems, List.count_append, hw.count, hnew, if_pos hstatus]
    simp

/-- **A look into the queue**: the id of the order that was taken out goes back as
    the attempt has left the order. -/
theorem QueueReader.Takes.queued {q : QueueReader} {stats stats' : Tally}
    {found : Option Taken} (h : q.Takes stats w found stats' w') (horderly : w.store.Orderly)
    (hw : w.Queued) : w'.Queued := by
  have hopened := (h.items hw.opened).1
  have hcount := h.count hw.opened
  cases h with
  | nothing _ => exact ⟨hw.opened, hw.drawn, hw.count⟩
  | @took rest id r w₁ clock hitems hprocess =>
    -- An id that is in the queue is that of an order to be processed, and it is there once.
    obtain ⟨o, ho, hpending⟩ := hw.pending_of_mem (hitems ▸ List.mem_cons_self)
    have honce : w.queue.items.count id = 1 := by
      rw [hw.count, World.awaited_of_find ho, if_pos hpending]
    obtain ⟨w₀, hw₀⟩ : ∃ w₀ : World, w₀ = { w with queue := { w.queue with items := rest } } :=
      ⟨_, rfl⟩
    have hstore : w₀.store = w.store := by rw [hw₀]
    rw [← hw₀] at hprocess
    obtain ⟨o', horders, hback⟩ := process_putsBack (hstore ▸ horderly) (hstore ▸ ho) hpending
      hprocess
    rw [hstore] at horders
    have hids : w.ids.next ≤ w₁.ids.next := by
      have hids₀ := (process_ended (hstore ▸ horderly) hprocess).ids
      rwa [hw₀] at hids₀
    simp only [Option.toList_some, List.map_cons, List.map_nil, count_putBack_singleton,
      List.count_singleton, beq_iff_eq] at hcount
    refine hw.change hopened hids ((hw.drawn ho).mono hids) horders (fun i hi => ?_) ?_
    · have hother := hcount i
      simp only [hi, if_false, false_and, Nat.zero_add, Nat.add_zero] at hother
      exact hother.symm
    · have hself := hcount id
      simp only [honce, if_true, true_and] at hself
      rw [← Nat.add_left_cancel hself]
      simp [hback]

/-- A transaction that has written nothing. -/
theorem World.Queued.unchanged {called : List OrderId} (hw : w.Queued)
    (h : Wrote w called {} w') : w'.Queued := by
  obtain ⟨horders, -, -⟩ := h.unchanged
  have hqueue := h.around.queue
  refine ⟨?_, fun {i o} ho => ?_, fun i => ?_⟩
  · rw [hqueue, hw.opened]
  · rw [horders] at ho
    exact (hw.drawn ho).mono h.ids
  · rw [hqueue, World.awaited_congr (horders i), hw.count]

/-- An order that is to be processed from now on is put into the queue. -/
theorem World.Queued.raise {w₁ : World} {r : Except OperationError Unit} {tx : Transaction}
    {correlation : Option String} (hw : w.Queued) (hid : o.id = id) (hstatus : o.status = .pending)
    (hnew : w.awaited id = 0) (hdrawn : w₁.ids.HasDrawn id.uuid) (hwrote : Wrote w [] tx w₁)
    (hraises : Raises w .inMemory o correlation tx w₁.ids)
    (hemits : Emits .inMemory id correlation w₁ r w') : w'.Queued := by
  cases hemits with
  | queued _ =>
    refine hw.push hwrote.ids hdrawn hstatus hnew (fun i => ?_) ?_
    · show w₁.store.orders.find? i = _
      rw [hwrote.orders, hraises.order, hid]
    · show w₁.queue.push id = _
      rw [hwrote.around.queue]
  | noted hmode | sent hmode | untold hmode => cases hmode

theorem PublishMode.accept_queued {correlation : Option String} {r : Except OperationError OrderId}
    (h : PublishMode.inMemory.accept correlation w = some (r, w')) (horderly : w.store.Orderly)
    (hids : w'.ids.Lasts) (hw : w.Queued) : w'.Queued := by
  rcases PublishMode.accept_ends horderly h with
    ⟨-, -, called, hwrote⟩ | ⟨id, now, tx, w₁, r₁, hid, hlt, hwrote, hraises, -, hemits, -⟩
  · exact hw.unchanged hwrote
  · have hdrawn : w₁.ids.HasDrawn id.uuid := by
      rw [hid]
      exact IdSupply.hasDrawn_versionFour hlt
    refine hw.raise (Order.fresh_id id now) rfl ?_ hdrawn hwrote hraises hemits
    -- The id was not drawn before, so there was no such order.
    have hnew : w.store.orders.find? id = none := by
      refine Option.eq_none_iff_forall_ne_some.mpr fun o ho => ?_
      have hids₁ : w₁.ids.Lasts := by
        cases hemits with
        | queued _ => exact hids
        | noted hmode | sent hmode | untold hmode => cases hmode
      have hbefore := hw.drawn ho
      rw [hid] at hbefore
      exact IdSupply.not_hasDrawn (Nat.le_refl _) (Nat.lt_of_lt_of_le hlt hids₁) hbefore
    exact World.awaited_of_none hnew

theorem PublishMode.readmit_queued {r : Except OperationError Unit}
    (h : PublishMode.inMemory.readmit id w = some (r, w')) (horderly : w.store.Orderly)
    (hw : w.Queued) : w'.Queued := by
  rcases PublishMode.readmit_ends horderly h with
    ⟨e, called, -, -, hwrote⟩ | ⟨o, now, tx, w₁, ho, hid, hfailed, hwrote, hraises, hemits⟩
  · exact hw.unchanged hwrote
  · have hdrawn : w₁.ids.HasDrawn id.uuid := (hw.drawn ho).mono hwrote.ids
    refine hw.raise ((o.moved_id _ _).trans hid) rfl ?_ hdrawn hwrote hraises hemits
    rw [World.awaited_of_find ho, hfailed]
    rfl

end queued

/-! ## Turns -/

/-- **A deed in memory**: orders come up, workers take them from the queue, and
    time passes or outages come and go. -/
def Deed.InMemory : Deed → Prop
  | .accept mode _ | Deed.readmit mode _ _ => mode = .inMemory
  | .round _ | .wait | .others => True
  | .process _ _ | .release | .lease | .settle _ | .forward _ | .consume _ => False

section turns
variable {w w' : World} {claimed claimed' : List OutboxRow} {d : Deed}

/-- **One turn** keeps queue and orders together. -/
theorem Turn.queued (h : Turn (w, claimed) d (w', claimed')) (hd : d.InMemory)
    (horderly : w.store.Orderly) (hids : w'.ids.Lasts) (hw : w.Queued) : w'.Queued := by
  cases h with
  | accept h =>
    obtain rfl : _ = PublishMode.inMemory := hd
    exact PublishMode.accept_queued h horderly hids hw
  | readmit h =>
    obtain rfl : _ = PublishMode.inMemory := hd
    exact PublishMode.readmit_queued h horderly hw
  | round h =>
    obtain ⟨_, _, _, -, htakes⟩ := QueueReader.round_takes h
    exact htakes.queued horderly hw
  | wait clock => exact ⟨hw.opened, hw.drawn, hw.count⟩
  | others _ _ hqueue =>
    exact ⟨(congrArg (·.closed) hqueue).trans hw.opened, hw.drawn,
      fun i => (congrArg (fun q => q.items.count i) hqueue).trans (hw.count i)⟩
  | process | release | lease | noLease | settle | giveUp | forward | consume => exact hd.elim

end turns

/-! ## Runs of a worker -/

/-- **Any number of looks into the queue**, what they have taken, oldest first,
    and what is counted. -/
inductive QueueReader.Goes (q : QueueReader) :
    Tally → World → List Taken → Tally → World → Prop where
  | done {stats : Tally} {w : World} : Goes q stats w [] stats w
  | look {stats stats₁ stats' : Tally} {w w₁ w' : World} {found : Option Taken}
    {taken : List Taken} (h : q.Takes stats w found stats₁ w₁)
    (rest : Goes q stats₁ w₁ taken stats' w') : Goes q stats w (found.toList ++ taken) stats' w'

/-- The attempt has ended with the outcome. -/
def Taken.endedWith (outcome : Outcome) (x : Taken) : Bool :=
  match x.2 with
  | .ok o => o = outcome
  | .error _ => false

/-- The attempt has failed with an error of such a kind. -/
def Taken.failedWith (p : OperationError → Bool) (x : Taken) : Bool :=
  match x.2 with
  | .ok _ => false
  | .error cause => p cause

section runs
variable {w w' : World} {q : QueueReader} {stats stats' : Tally} {taken : List Taken}

/-- **A worker's run is a number of looks**, whenever it is asked to stop. -/
theorem QueueReader.loop_goes {stop : StopRequest} {budget : Nat}
    {r : Except OperationError Tally}
    (h : Round.loop q.round stop budget stats w = some (r, w')) :
    ∃ stats' taken, r = .ok stats' ∧ q.Goes stats w taken stats' w' := by
  induction budget generalizing stats w with
  | zero => cases h
  | succ budget ih =>
    -- A run ends before a round, or after one that was cut short.
    rcases bind_eq_some_iff.mp h with ⟨come, w₁, hcheck, hrest⟩ | ⟨cause, hcheck, -⟩
    · cases hcheck
      split at hrest
      · cases hrest
        exact ⟨_, _, rfl, .done⟩
      · rcases bind_eq_some_iff.mp hrest with ⟨answer, w₂, hround, hend⟩ | ⟨cause, hround, -⟩
        · obtain ⟨found, stats₁, stopped, hr, htakes⟩ := QueueReader.round_takes hround
          cases hr
          dsimp only at hend
          split at hend
          · cases hend
            exact ⟨_, _, rfl, .look htakes .done⟩
          · obtain ⟨stats', taken, hr, hgoes⟩ := ih hend
            exact ⟨stats', _, hr, .look htakes hgoes⟩
        · obtain ⟨_, _, _, hr, -⟩ := QueueReader.round_takes hround
          cases hr
    · cases hcheck

theorem QueueReader.run_goes {forMs budget : Nat} {r : Except OperationError Tally}
    (h : Round.run q.round forMs budget w = some (r, w')) :
    ∃ stats' taken, r = .ok stats' ∧ q.Goes {} w taken stats' w' := by
  rcases bind_eq_some_iff.mp h with ⟨started, w₁, hread, hloop⟩ | ⟨cause, hread, -⟩
  · cases hread
    exact QueueReader.loop_goes hloop
  · cases hread

/-- **What is counted** is what was taken. -/
theorem QueueReader.Goes.counts (h : q.Goes stats w taken stats' w') :
    stats'.received = stats.received + taken.length ∧
      stats'.processed = stats.processed + taken.countP (Taken.endedWith .processed) ∧
      stats'.retried = stats.retried + taken.countP (Taken.endedWith .retry) ∧
      stats'.failed = stats.failed + taken.countP (Taken.endedWith .failed) ∧
      stats'.errors = stats.errors + taken.countP (Taken.failedWith fun _ => true) := by
  induction h with
  | done => simp
  | @look stats stats₁ _ _ _ _ found taken htakes _ ih =>
    obtain ⟨hreceived, hprocessed, hretried, hfailed, herrors⟩ := ih
    rw [hreceived, hprocessed, hretried, hfailed, herrors]
    -- Of an attempt just one thing is counted besides the id itself.
    cases htakes with
    | nothing _ => simp [Tally.addPoll]
    | @took _ id r =>
      rcases r with cause | _ | _ | _
      all_goals
        simp [QueueReader.count, Tally.addPoll, Tally.addReceived, Tally.addError,
          Tally.addOutcome, Taken.endedWith, Taken.failedWith, List.countP_cons]
        omega

/-- **First in, first out**: what was in the queue and what has gone back is what
    was taken and what is still there, in this order. -/
theorem QueueReader.Goes.items (h : q.Goes stats w taken stats' w')
    (hopen : w.queue.closed = false) : w'.queue.closed = false ∧
      w.queue.items ++ putBack taken = taken.map (·.1) ++ w'.queue.items := by
  induction h with
  | done => exact ⟨hopen, by simp [putBack]⟩
  | @look stats stats₁ _ w w₁ w' found taken htakes _ ih =>
    obtain ⟨hopened, hfirst⟩ := htakes.items hopen
    obtain ⟨hopened', hrest⟩ := ih hopened
    have hsplit : putBack (found.toList ++ taken) = putBack found.toList ++ putBack taken := by
      simp [putBack]
    refine ⟨hopened', ?_⟩
    rw [hsplit, ← List.append_assoc, hfirst, List.append_assoc, hrest, List.map_append,
      List.append_assoc]

/-- Each attempt has ended in one of four ways. -/
theorem length_eq_counts (taken : List Taken) : taken.length =
    taken.countP (Taken.endedWith .processed) + taken.countP (Taken.endedWith .retry) +
      taken.countP (Taken.endedWith .failed) + taken.countP (Taken.failedWith fun _ => true) := by
  induction taken with
  | nil => rfl
  | cons x taken ih =>
    obtain ⟨id, cause | _ | _ | _⟩ := x
    all_goals
      simp +arith [ih, Taken.endedWith, Taken.failedWith, List.countP_cons]

/-- An id goes back after a retry and after a failure that is not lasting. -/
theorem length_putBack (taken : List Taken) : (putBack taken).length =
    taken.countP (Taken.endedWith .retry) +
      taken.countP (Taken.failedWith fun e => !e.isLasting) := by
  induction taken with
  | nil => rfl
  | cons x taken ih =>
    obtain ⟨id, r⟩ := x
    have hcons : (putBack ((id, r) :: taken)).length =
        (putBack taken).length + if QueueReader.putsBack r then 1 else 0 := by
      unfold putBack
      rw [List.filter_cons]
      split <;> simp
    rw [hcons, ih]
    rcases r with cause | _ | _ | _
    all_goals
      simp +arith [QueueReader.putsBack, Taken.endedWith, Taken.failedWith, List.countP_cons]

end runs

/-! ## The property -/

/-- **Along a run** queue and orders stay together. -/
theorem Turns.queued {w₀ w : World} {claimed : List OutboxRow} {deeds : List Deed}
    (hstore : w₀.store = {}) (hqueue : w₀.queue = {})
    (h : Turns (w₀, []) deeds (w, claimed)) (hdeeds : ∀ d ∈ deeds, d.InMemory)
    (hids : w.ids.Lasts) : w.Queued := by
  have hnone (i : OrderId) : w₀.store.orders.find? i = none := by
    rw [hstore]
    rfl
  have hempty : w₀.Queued := by
    refine ⟨by rw [hqueue], fun {i o} ho => ?_, fun i => ?_⟩
    · rw [hnone] at ho
      cases ho
    · rw [World.awaited_of_none (hnone i), hqueue]
      rfl
  exact h.keep (P := fun c _ => c.1.Queued) hdeeds
    (fun horderly hids hd hturn hc => hturn.queued hd horderly hids hc)
    (hstore ▸ Store.orderly_empty) hids hempty

/-- **No id is lost or duplicated on the in-memory route.**  At any time in any run
    from an empty store and an empty queue that is never closed, in which orders
    are accepted and readmitted in memory and taken by workers of the queue, with
    any answers of the processor and outages at any point: an order that is to be
    processed is in the queue once, one that is processed or given up on is not,
    and nothing else is in it.  The actions of such a pipeline, whole runs of
    workers among them, unfold into turns of such a run.

    Whenever a worker's run has ended, from whatever world and with whatever ids
    in its open queue, it has counted each id that it took out as processed,
    retried, given up on or an error.  It took them from the front of the queue
    and put ids back at its end, those of the orders to be retried and of those
    whose attempt has failed with an error that is not lasting. -/
theorem no_id_lost_or_duplicated {w₀ w : World} {claimed : List OutboxRow} {deeds : List Deed}
    (hstore : w₀.store = {}) (hqueue : w₀.queue = {})
    (h : Turns (w₀, []) deeds (w, claimed)) (hdeeds : ∀ d ∈ deeds, d.InMemory)
    (hids : w.ids.Lasts) :
    (∀ id o, w.store.orders.find? id = some o →
      (o.status = .pending → w.queue.items.count id = 1) ∧
      (o.status = .processed ∨ o.status = .failed → id ∉ w.queue.items)) ∧
    (∀ id ∈ w.queue.items, ∃ o, w.store.orders.find? id = some o ∧ o.status = .pending) ∧
    (∀ (a : Action) r w', a.Alone w → (∀ d, a.MayDo d → d.InMemory) →
      a.call w = some (r, w') → Unfolds Deed.InMemory w w') ∧
    ∀ (q : QueueReader) (forMs budget : Nat) (v : World) r v', v.queue.closed = false →
      Round.run q.round forMs budget v = some (r, v') →
      ∃ t taken, r = .ok t ∧ q.Goes {} v taken t v' ∧ v'.queue.closed = false ∧
        t.received = taken.length ∧
        t.received = t.processed + t.retried + t.failed + t.errors ∧
        t.processed = taken.countP (Taken.endedWith .processed) ∧
        t.retried = taken.countP (Taken.endedWith .retry) ∧
        t.failed = taken.countP (Taken.endedWith .failed) ∧
        t.errors = taken.countP (Taken.failedWith fun _ => true) ∧
        v.queue.items ++ putBack taken = taken.map (·.1) ++ v'.queue.items ∧
        (putBack taken).length =
          t.retried + taken.countP (Taken.failedWith fun e => !e.isLasting) := by
  have hqueued := h.queued hstore hqueue hdeeds hids
  refine ⟨fun id o ho => ?_, fun id hid => hqueued.pending_of_mem hid,
    fun a r w' halone hkinds hcall => Action.unfolds halone hkinds hcall,
    fun q forMs budget v r v' hopen hrun => ?_⟩
  · have hcount := hqueued.count id
    rw [World.awaited_of_find ho] at hcount
    refine ⟨fun hpending => by rw [hcount, if_pos hpending], fun hsettled => ?_⟩
    refine List.count_eq_zero.mp ?_
    rw [hcount]
    rcases hsettled with hstatus | hstatus <;> simp [hstatus]
  · obtain ⟨t, taken, hr, hgoes⟩ := QueueReader.run_goes hrun
    obtain ⟨hopened, hitems⟩ := hgoes.items hopen
    obtain ⟨hreceived, hprocessed, hretried, hfailed, herrors⟩ := hgoes.counts
    simp only [Nat.zero_add] at hreceived hprocessed hretried hfailed herrors
    refine ⟨t, taken, hr, hgoes, hopened, hreceived, ?_, hprocessed, hretried, hfailed, herrors,
      hitems, ?_⟩
    · rw [hreceived, hprocessed, hretried, hfailed, herrors, length_eq_counts]
    · rw [hretried, length_putBack]

/-- The store goes down before an attempt can be committed, and the worker is
    stopped in the second that it waits before it puts the order back. -/
theorem no_id_lost_or_duplicated_outage :
    ∃ w₀ w deeds o, w₀.store = {} ∧ w₀.queue = {} ∧ Turns (w₀, []) deeds (w, []) ∧
      (∀ d ∈ deeds, d.InMemory) ∧ w.ids.Lasts ∧ w.store.available = false ∧
      w.clock.elapsed = 500 ∧ w.processor.calls = [⟨.versionFour 0⟩] ∧
      w.store.orders.find? ⟨.versionFour 0⟩ = some o ∧ o.status = .pending ∧
      w.queue.items.count ⟨.versionFour 0⟩ = 1 := by
  obtain ⟨w₀, hw₀⟩ : ∃ w₀ : World,
    w₀ = { disturbances := [{}, {}, {}, { store := some false }] } := ⟨_, rfl⟩
  have hplay : (w₀.play [.accept .inMemory none, .work (.queue {}) 500 5]).map (fun w =>
      ((w.store.orders.find? ⟨.versionFour 0⟩).map (·.status), w.store.available,
        w.clock.elapsed, w.processor.calls, w.ids.next)) =
      some (some .pending, false, 500, [⟨.versionFour 0⟩], 1) := by
    rw [hw₀]
    decide +kernel
  obtain ⟨w, hw, heq⟩ := Option.map_eq_some_iff.mp hplay
  simp only [Prod.mk.injEq] at heq
  obtain ⟨horder, havailable, helapsed, hcalls, hnext⟩ := heq
  obtain ⟨o, ho, hpending⟩ := Option.map_eq_some_iff.mp horder
  have hids : w.ids.Lasts := by
    unfold IdSupply.Lasts
    omega
  obtain ⟨deeds, hturns, hdeeds⟩ : Unfolds Deed.InMemory w₀ w := by
    refine World.play_unfolds (fun a ha => ?_) hw
    simp only [List.mem_cons, List.not_mem_nil, or_false] at ha
    rcases ha with rfl | rfl
    · refine ⟨fun _ => trivial, fun d hd => ?_⟩
      cases d with
      | accept mode r => exact hd
      | _ => exact hd.elim
    · refine ⟨fun _ => trivial, fun d hd => ?_⟩
      cases d <;> first | exact hd.elim | trivial
  have hstore : w₀.store = {} := by rw [hw₀]
  have hqueue : w₀.queue = {} := by rw [hw₀]
  obtain ⟨hall, -⟩ := no_id_lost_or_duplicated hstore hqueue hturns hdeeds hids
  exact ⟨w₀, w, deeds, o, hstore, hqueue, hturns, hdeeds, hids, havailable, helapsed, hcalls, ho,
    hpending, (hall _ o ho).1 hpending⟩

end OrderFlow
