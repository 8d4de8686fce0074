import OrderFlow.Proofs.Claiming
import OrderFlow.Proofs.Run.AtRest
import OrderFlow.Proofs.Run.Progress
import OrderFlow.Proofs.Run.Routes
import OrderFlow.Proofs.Store.Ownership

/-! # Every route gets done

    A run on one route can be taken to a point where nothing is left to do,
    from wherever it is and without a new order.

    As long as there is work, there is a turn that can be made and makes it
    less (`Route.work`).  Only rows that nobody has claimed take two more: at
    the end of time every lease is stale and every row is due. -/

namespace OrderFlow

open World

/-! ## Claiming a live row -/

/-- **No lease is for ever**: a row in processing is claimed by the poll under way, or
    its lease is stale some day. -/
def World.LeasesEnd (w : World) (claimed : List OutboxRow) : Prop :=
  ∀ row e, w.store.rows.find? row = some e → e.status = .processing →
    e.isStale .endOfTime = true ∨ row ∈ claimed.map (·.id)

section claims
variable {w w' : World} {claimed rest : List OutboxRow} {e : OutboxRow} {f : OutboxRow → OutboxRow}

/-- Rows have not been touched. -/
theorem World.LeasesEnd.congr (h : w.LeasesEnd claimed)
    (hrows : ∀ row, w'.store.rows.find? row = w.store.rows.find? row) : w'.LeasesEnd claimed :=
  fun row e he => h row e ((hrows row).symm.trans he)

/-- The first claimed row is not in processing any longer. -/
theorem World.LeasesEnd.settle (h : w.LeasesEnd (e :: rest))
    (hothers : ∀ row, e.id ≠ row → w'.store.rows.find? row = w.store.rows.find? row)
    (hself : ∀ e', w'.store.rows.find? e.id = some e' → e'.status ≠ .processing) :
    w'.LeasesEnd rest := by
  intro row e' he' hprocessing
  by_cases hrow : e.id = row
  · subst hrow
    exact absurd hprocessing (hself e' he')
  · rw [hothers row hrow] at he'
    refine (h row e' he' hprocessing).imp id fun hmem => ?_
    exact (List.mem_cons.mp hmem).resolve_left (Ne.symm hrow)

theorem OutboxRow.isDue_endOfTime (h : e.status = .pending) : e.isDue .endOfTime = true := by
  simp [OutboxRow.isDue, h, Instant.le_endOfTime]

/-- Rewriting rows that stay live. -/
theorem World.Rewritten.live (h : w.Rewritten f w')
    (hf : ∀ row e, w.store.rows.find? row = some e → ((f e).Live ↔ e.Live)) :
    w'.store.live = w.store.live := by
  ext row
  rw [Store.mem_live, Store.mem_live, h.rows]
  cases hfound : w.store.rows.find? row with
  | none => simp
  | some e => simpa using hf row e hfound

/-- Rewriting rows leaves nothing open. -/
theorem World.Rewritten.atRest (h : w.Rewritten f w') (hw : w.AtRest) : w'.AtRest := by
  have hsteady : Undisturbed w w' := by
    rw [h.rest]
    exact undisturbed_of_eq rfl rfl rfl rfl rfl
  refine ⟨h.orderly, hsteady.steady hw.steady, fun u => ?_⟩
  rw [h.rest]
  exact hw.closed u

/-- What claims one row at the end of time, whoever has leased it before. -/
def Claimant.last : Claimant where
  name := "last"
  batchSize := 1
  lockTimeout := ⟨0⟩

theorem World.AtRest.unlocked (hw : w.AtRest) (e : OutboxRow) : w.store.unlocked e = true := by
  simp [Store.unlocked, hw.orderly.locks_eq_nil hw.closed, Table.find?]

/-- At the end of time every lease is freed that ends. -/
theorem World.AtRest.freed_eq (hw : w.AtRest) (e : OutboxRow) :
    w.store.freed (Instant.endOfTime.earlier Claimant.last.lockTimeout) e =
      if e.isStale .endOfTime then e.endLease else e := by
  have hlimit : Instant.endOfTime.earlier Claimant.last.lockTimeout = .endOfTime :=
    Instant.earlier_endOfTime
  simp [Store.freed, hw.unlocked, hlimit]

/-- **All leases end** in a release at the end of time. -/
theorem World.AtRest.releases (hw : w.AtRest) (hleases : w.LeasesEnd []) :
    ∃ w₁ released, Claimant.last.release .endOfTime w = some (.ok released, w₁) ∧
      w₁.AtRest ∧ w₁.store.live = w.store.live ∧
      (∀ row e, w₁.store.rows.find? row = some e → e.status ≠ .processing) ∧
      w₁ = { w with store :=
        { w.store with rows := w₁.store.rows, nextTx := w.store.nextTx + 1 } } := by
  obtain ⟨w₁, hrelease, hfreed⟩ := Claimant.last.release_rewrites .endOfTime hw.orderly
    hw.steady.store hw.steady.disturbances
  refine ⟨w₁, _, hrelease, hfreed.atRest hw, hfreed.live fun row e _ => ?_, ?_, hfreed.rest⟩
  · -- A row that is freed was in processing, and waits now.
    rw [hw.freed_eq]
    split
    · next hstale =>
      simp only [OutboxRow.isStale, decide_eq_true_eq] at hstale
      simp [OutboxRow.Live, OutboxRow.endLease, hstale.1, Status.isSettled]
    · exact Iff.rfl
  · intro row e₁ he₁ hprocessing
    rw [hfreed.rows, Option.map_eq_some_iff] at he₁
    obtain ⟨e, he, rfl⟩ := he₁
    rw [hw.freed_eq] at hprocessing
    split at hprocessing
    · cases hprocessing
    · next hstale =>
      rcases hleases row e he hprocessing with hends | hmem
      · exact hstale hends
      · cases hmem

/-- **A row that is still owed work can be claimed**, whoever has leased it before.
    No other row is in processing then. -/
theorem World.AtRest.claims (hw : w.AtRest) (hleases : w.LeasesEnd [])
    (hlive : w.store.live.Nonempty) :
    ∃ e w', Turns (w, []) [.release, .lease] (w', [e]) ∧ w'.LeasesEnd [e] ∧
      w'.store.live = w.store.live ∧ e.id ∈ w'.store.live ∧
      w' = { w with store :=
        { w.store with rows := w'.store.rows, nextTx := w.store.nextTx + 2 } } := by
  obtain ⟨w₁, released, hrelease, hw₁, hsame, hwaiting, hrest⟩ := hw.releases hleases
  obtain ⟨w₂, hlease, hleased⟩ := Claimant.last.lease_rewrites .endOfTime hw₁.orderly
    hw₁.steady.store hw₁.steady.disturbances
  -- A live row waits and is due, so there is a row to be claimed.
  obtain ⟨row, hrow⟩ := hlive
  rw [← hsame, Store.mem_live] at hrow
  obtain ⟨e₀, he₀, hlive₀⟩ := hrow
  have hpending : e₀.status = .pending := by
    have hstatus := hwaiting row e₀ he₀
    cases hcase : e₀.status with
    | pending => rfl
    | processing => exact absurd hcase hstatus
    | processed | failed => simp [OutboxRow.Live, hcase, Status.isSettled] at hlive₀
  have hclaimable : e₀ ∈ w₁.store.claimable .endOfTime := by
    obtain rfl := hw₁.orderly.rows.own he₀
    refine List.mem_filter.mpr ⟨hw₁.orderly.mem_listRows_iff.mpr he₀, ?_⟩
    rw [OutboxRow.isDue_endOfTime hpending, hw₁.unlocked]
    rfl
  obtain ⟨e, others, hclaimed⟩ := List.exists_cons_of_ne_nil (List.ne_nil_of_mem hclaimable)
  have htake : (w₁.store.claimable .endOfTime).take Claimant.last.batchSize = [e] := by
    rw [hclaimed]
    rfl
  rw [htake] at hlease hleased
  have hlisted : e ∈ w₁.store.claimable .endOfTime := hclaimed ▸ List.mem_cons_self
  have hfound : w₁.store.rows.find? e.id = some e :=
    hw₁.orderly.mem_listRows_iff.mp (List.mem_filter.mp hlisted).1
  have hself : w₂.store.rows.find? e.id = some (e.lease .endOfTime Claimant.last.name) := by
    simp [hleased.rows, hfound]
  refine ⟨e, w₂, (Turns.single (.release hrelease)).tail (.lease hlease), ?_, ?_, ?_, ?_⟩
  · -- A row in processing is the one that was leased just now.
    intro row e₂ he₂ hprocessing
    rw [hleased.rows, Option.map_eq_some_iff] at he₂
    obtain ⟨e₁, he₁, rfl⟩ := he₂
    split at hprocessing
    · next hmem =>
      rw [List.mem_singleton] at hmem
      refine Or.inr (List.mem_singleton.mpr ?_)
      rw [← hw₁.orderly.rows.own he₁, hmem]
    · exact absurd hprocessing (hwaiting row e₁ he₁)
  · refine (hleased.live fun row e₁ he₁ => ?_).trans hsame
    split
    · next hmem =>
      -- It was due, so it was waiting.
      rw [List.mem_singleton] at hmem
      have hdue := (List.mem_filter.mp hlisted).2
      simp only [OutboxRow.isDue, Bool.and_eq_true, decide_eq_true_eq] at hdue
      simp [hmem, OutboxRow.Live, OutboxRow.lease, hdue.1.1, Status.isSettled]
    · exact Iff.rfl
  · exact Store.mem_live.mpr ⟨_, hself, rfl⟩
  · rw [hleased.rest, hrest]

end claims

/-! ## Runs on a route -/

/-- **Reached on the route**: a run from a fresh pipeline has come here, in which an order
    may fail once at least, and messages are delivered as often as orders are tried. -/
inductive Route.Reached (route : Route) (script : OrderId → Nat → Option String) (m : Nat)
    (w : World) (claimed : List OutboxRow) : Prop where
  | run {w₀ : World} {deeds : List Deed} (hm : 0 < m) (hfresh : w₀.IsFresh script)
    (hreceives : route = .transport ∨ route = .relay → m ≤ w₀.transport.maxReceives)
    (hturns : Turns (w₀, []) deeds (w, claimed)) (hdeeds : ∀ d ∈ deeds, route.Allows m d) :
    Reached route script m w claimed

/-- **How much work is left** on the route at most.  A row that is sent costs less than what
    its message may bring. -/
def Route.work (m : Nat) (w : World) (claimed : List OutboxRow) : Route → Nat
  | .memory | .outbox => w.attemptsLeft m
  | .transport => w.transport.receivesLeft
  | .relay => (w.store.live.card + claimed.length) * (w.transport.maxReceives + 2) +
      w.transport.receivesLeft

/-- **The run goes on** without a new order, and there is less work than before. -/
structure Route.GoesOn (route : Route) (m : Nat) (w : World) (claimed : List OutboxRow)
    (w' : World) (claimed' : List OutboxRow) : Prop where
  turns : ∃ deeds, Turns (w, claimed) deeds (w', claimed') ∧
    ∀ d ∈ deeds, route.Allows m d ∧ ¬ d.IsAnnouncement
  leases : route.mode = .outbox → w'.LeasesEnd claimed'
  work : route.work m w' claimed' < route.work m w claimed
  /-- What is drawn is no more than the work that was done. -/
  ids : w'.ids.next + route.work m w' claimed' ≤ w.ids.next + route.work m w claimed

section routes
variable {w w' : World} {claimed claimed' rest : List OutboxRow} {e : OutboxRow}
  {deeds : List Deed} {m : Nat} {script : OrderId → Nat → Option String} {route : Route}

namespace Route.Reached

theorem further (h : route.Reached script m w claimed)
    (hturns : Turns (w, claimed) deeds (w', claimed')) (hdeeds : ∀ d ∈ deeds, route.Allows m d) :
    route.Reached script m w' claimed' := by
  obtain ⟨hm, hfresh, hreceives, hbefore, hallowed⟩ := h
  exact ⟨hm, hfresh, hreceives, hbefore.trans hturns,
    List.forall_mem_append.mpr ⟨hallowed, hdeeds⟩⟩

theorem orderly (h : route.Reached script m w claimed) : w.store.Orderly := by
  obtain ⟨-, hfresh, -, hturns, -⟩ := h
  exact hturns.orderly (hfresh.store ▸ Store.orderly_empty)

theorem onTrack (h : route.Reached script m w claimed) (hids : w.ids.Lasts) :
    w.OnTrack script m := by
  obtain ⟨hm, hfresh, hreceives, hturns, hdeeds⟩ := h
  exact (hturns.covered hm hfresh hreceives hdeeds hids).1

theorem atRest (h : route.Reached script m w claimed) (hids : w.ids.Lasts) :
    w.AtRest := by
  refine ⟨h.orderly, (h.onTrack hids).steady, fun u => ?_⟩
  obtain ⟨-, hfresh, -, hturns, -⟩ := h
  rw [hturns.opened (hfresh.store ▸ Store.orderly_empty), hfresh.store]
  rfl

/-- An order that is tried has an attempt left. -/
theorem tried (h : route.Reached script m w claimed) (hids : w.ids.Lasts) {o : Order}
    (htried : Tried w o m w') : w'.attemptsLeft m < w.attemptsLeft m := by
  have hon := h.onTrack hids
  have horderly := h.orderly
  obtain ⟨hm, -, -, -, -⟩ := h
  obtain ⟨-, hfew⟩ := hon.pending hm horderly htried.order htried.pending
  exact htried.attemptsLeft_lt hfew

theorem queued (h : Route.memory.Reached script m w claimed) (hids : w.ids.Lasts) : w.Queued := by
  obtain ⟨-, hfresh, -, hturns, hdeeds⟩ := h
  refine hturns.queued hfresh.store hfresh.queue (fun d hd => ?_) hids
  have hallowed := hdeeds d hd
  cases d with
  | accept | round | wait => first | exact hallowed | trivial
  | _ => exact hallowed.elim

theorem lockstep (h : Route.outbox.Reached script m w claimed) (hids : w.ids.Lasts) :
    w.Lockstep claimed := by
  obtain ⟨-, hfresh, -, hturns, hdeeds⟩ := h
  exact (hturns.lockstep hfresh.store (fun d hd => (hdeeds d hd).inOutbox) hids).1

theorem held (h : route.Reached script m w claimed) (hids : w.ids.Lasts)
    (he : e ∈ claimed) : (w.store.rows.find? e.id).isSome := by
  obtain ⟨hm, hfresh, hreceives, hturns, hdeeds⟩ := h
  exact (hturns.covered hm hfresh hreceives hdeeds hids).2.1.held he

end Route.Reached

/-- A run goes on with a turn that leaves less work, after turns that draw no id. -/
theorem Route.GoesOn.of_turns {w₁ : World} {claimed₁ : List OutboxRow} {d : Deed}
    (hturns : Turns (w, claimed) deeds (w₁, claimed₁)) (hids : w₁.ids = w.ids)
    (hturn : Turn (w₁, claimed₁) d (w', claimed'))
    (hdeeds : ∀ d' ∈ deeds ++ [d], route.Allows m d' ∧ ¬ d'.IsAnnouncement)
    (hleases : route.mode = .outbox → w'.LeasesEnd claimed')
    (hwork : route.work m w' claimed' < route.work m w claimed) :
    route.GoesOn m w claimed w' claimed' where
  turns := ⟨_, hturns.tail hturn, hdeeds⟩
  leases := hleases
  work := hwork
  ids := by
    have hd : ¬ d.IsAnnouncement := (hdeeds d (by simp)).2
    have hdrawn : w'.ids.next = w₁.ids.next + d.draws := hturn.ids_next hd
    have hfew := d.draws_le
    rw [hids] at hdrawn
    omega

/-! ## Progress on each of the routes -/

/-- **In memory** an order is taken from the queue. -/
theorem Route.goesOn_memory (h : Route.memory.Reached script m w claimed)
    (hids : w.ids.Lasts) (hitems : w.queue.items ≠ []) :
    ∃ w', Route.memory.GoesOn m w claimed w' claimed := by
  have hrest := h.atRest hids
  obtain ⟨w', hturn⟩ := hrest.round claimed { maxRetries := m }
  obtain ⟨o, htried⟩ := hturn.round_tries (h.queued hids) hrest.orderly hrest.steady hitems
  refine ⟨w', .of_turns .refl rfl hturn ?_ nofun (h.tried hids htried)⟩
  simp [Route.Allows, Deed.IsAnnouncement]

/-- **From the outbox** a row that is claimed is settled. -/
theorem Route.settles (h : Route.outbox.Reached script m w (e :: rest)) (hids : w.ids.Lasts)
    (hleases : w.LeasesEnd (e :: rest)) :
    ∃ w', Turn (w, e :: rest) (.settle { maxRetries := m }) (w', rest) ∧ w'.LeasesEnd rest ∧
      w'.attemptsLeft m < w.attemptsLeft m := by
  have hrest := h.atRest hids
  obtain ⟨w', hturn⟩ := hrest.settle { maxRetries := m } e rest
  obtain ⟨⟨o, htried⟩, hothers, hself⟩ :=
    hturn.settle_tries (h.lockstep hids) hrest.orderly hrest.steady
  exact ⟨w', hturn, hleases.settle hothers hself, h.tried hids htried⟩

/-- If no row is claimed, one of those that are owed work is claimed first. -/
theorem Route.goesOn_outbox (h : Route.outbox.Reached script m w claimed)
    (hids : w.ids.Lasts) (hleases : w.LeasesEnd claimed) (hlive : w.store.live.Nonempty) :
    ∃ w' claimed', Route.outbox.GoesOn m w claimed w' claimed' := by
  cases claimed with
  | cons e rest =>
    obtain ⟨w', hturn, hends, hless⟩ := Route.settles h hids hleases
    refine ⟨w', rest, .of_turns .refl rfl hturn ?_ (fun _ => hends) hless⟩
    simp [Route.Allows, Deed.IsAnnouncement]
  | nil =>
    obtain ⟨e, w₁, hturns, hleases₁, -, -, hrest⟩ := (h.atRest hids).claims hleases hlive
    have hsame : w₁.ids = w.ids := by rw [hrest]
    have hleft : w₁.attemptsLeft m = w.attemptsLeft m := by
      rw [hrest]
      rfl
    have hreached := h.further hturns (by simp [Route.Allows])
    obtain ⟨w', hturn, hends, hless⟩ := Route.settles hreached (hsame ▸ hids) hleases₁
    refine ⟨w', [], .of_turns hturns hsame hturn ?_ (fun _ => hends) (hless.trans_eq hleft)⟩
    simp [Route.Allows, Deed.IsAnnouncement]

/-- **From the transport** a message is received, once it can be seen. -/
theorem Route.goesOn_deliver (hroute : route = .transport ∨ route = .relay)
    (h : route.Reached script m w claimed) (hids : w.ids.Lasts)
    (hleases : route.mode = .outbox → w.LeasesEnd claimed)
    (hmessages : w.transport.messages ≠ []) :
    ∃ w', route.GoesOn m w claimed w' claimed := by
  obtain ⟨x, others, hx⟩ := List.exists_cons_of_ne_nil hmessages
  -- Time passes until the first message can be seen.
  obtain ⟨clock, hvisible⟩ : ∃ clock : Clock, x.isVisible clock.elapsed = true := by
    cases hhidden : x.hiddenUntil with
    | none => exact ⟨w.clock, by simp [HeldMessage.isVisible, hhidden]⟩
    | some moment =>
      exact ⟨w.clock.advanceTo moment, by simp [HeldMessage.isVisible, hhidden, Clock.advanceTo]⟩
  have hw := h.atRest hids
  have hwaits : Undisturbed w { w with clock := clock } :=
    undisturbed_of_eq rfl rfl rfl rfl rfl
  have hrest : AtRest { w with clock := clock } := ⟨hw.orderly, hwaits.steady hw.steady, hw.closed⟩
  obtain ⟨w', hturn⟩ := hrest.consume claimed { maxRetries := m }
  obtain ⟨hless, hmax, hrows⟩ := hturn.consume_delivers hrest.orderly hrest.steady
    ⟨x, hx ▸ List.mem_cons_self, hvisible⟩
  have hlive : w'.store.live = w.store.live := by
    ext row
    rw [Store.mem_live, Store.mem_live, hrows]
  have hwork : route.work m w' claimed < route.work m w claimed := by
    rcases hroute with rfl | rfl
    · exact hless
    · unfold Route.work
      rw [hlive, hmax]
      exact Nat.add_lt_add_left hless _
  refine ⟨w', .of_turns (.single (.wait clock)) rfl hturn ?_ (fun hmode => ?_) hwork⟩
  · rcases hroute with rfl | rfl <;> simp [Route.Allows, Deed.IsAnnouncement]
  · exact (hleases hmode).congr hrows

/-- **Over the relay** a row that is claimed is sent. -/
theorem Route.forwards (h : Route.relay.Reached script m w (e :: rest))
    (hids : w.ids.Lasts) (hleases : w.LeasesEnd (e :: rest)) :
    ∃ w', Turn (w, e :: rest) (.forward {}) (w', rest) ∧ w'.LeasesEnd rest ∧
      w'.store.live ⊆ w.store.live.erase e.id ∧
      w'.transport.receivesLeft = w.transport.receivesLeft + (w.transport.maxReceives + 1) ∧
      w'.transport.maxReceives = w.transport.maxReceives := by
  have hrest := h.atRest hids
  obtain ⟨w', hturn⟩ := hrest.forward {} e rest
  obtain ⟨⟨e', he', hstatus⟩, hothers, hmessages, hmax⟩ := hturn.forward_sends hrest.orderly
    hrest.steady (h.held hids List.mem_cons_self)
  refine ⟨w', hturn, hleases.settle hothers fun e₁ he₁ => ?_, fun row hrow => ?_, ?_, hmax⟩
  · rw [he', Option.some.injEq] at he₁
    simp [← he₁, hstatus]
  · obtain ⟨e₁, he₁, hlive⟩ := Store.mem_live.mp hrow
    have hne : e.id ≠ row := by
      rintro rfl
      rw [he', Option.some.injEq] at he₁
      simp [OutboxRow.Live, ← he₁, hstatus, Status.isSettled] at hlive
    rw [hothers row hne] at he₁
    exact Finset.mem_erase.mpr ⟨Ne.symm hne, Store.mem_live.mpr ⟨e₁, he₁, hlive⟩⟩
  · unfold Transport.receivesLeft
    rw [hmessages, hmax]
    simp

/-- The message of a row that is sent is less work than the row was. -/
theorem relay_work_lt {rows rows' most left left' : Nat} (hrows : rows' < rows)
    (hleft : left' = left + (most + 1)) :
    rows' * (most + 2) + left' < rows * (most + 2) + left := by
  have hmul : (rows' + 1) * (most + 2) ≤ rows * (most + 2) := Nat.mul_le_mul_right _ hrows
  rw [Nat.add_mul] at hmul
  omega

theorem Route.goesOn_relay (h : Route.relay.Reached script m w claimed)
    (hids : w.ids.Lasts) (hleases : w.LeasesEnd claimed) (hlive : w.store.live.Nonempty) :
    ∃ w' claimed', Route.relay.GoesOn m w claimed w' claimed' := by
  cases claimed with
  | cons e rest =>
    obtain ⟨w', hturn, hends, hlive', hleft, hmax⟩ := Route.forwards h hids hleases
    have hcard := Finset.card_le_card (hlive'.trans (Finset.erase_subset _ _))
    have hwork : Route.relay.work m w' rest < Route.relay.work m w (e :: rest) := by
      unfold Route.work
      rw [hmax]
      exact relay_work_lt (by rw [List.length_cons]; omega) hleft
    refine ⟨w', rest, .of_turns .refl rfl hturn ?_ (fun _ => hends) hwork⟩
    simp [Route.Allows, Deed.IsAnnouncement]
  | nil =>
    -- A row is claimed first.
    obtain ⟨e, w₁, hturns, hleases₁, hsame, hmem, hrest⟩ :=
      (h.atRest hids).claims hleases hlive
    have hids₁ : w₁.ids = w.ids := by rw [hrest]
    have htransport : w₁.transport = w.transport := by rw [hrest]
    have hreached := h.further hturns (by simp [Route.Allows])
    obtain ⟨w', hturn, hends, hlive', hleft, hmax⟩ :=
      Route.forwards hreached (hids₁ ▸ hids) hleases₁
    have hcard : w'.store.live.card < w.store.live.card := by
      rw [← hsame]
      exact Nat.lt_of_le_of_lt (Finset.card_le_card hlive') (Finset.card_erase_lt_of_mem hmem)
    rw [htransport] at hleft hmax
    have hwork : Route.relay.work m w' [] < Route.relay.work m w [] := by
      unfold Route.work
      rw [hmax]
      exact relay_work_lt (by simpa using hcard) hleft
    refine ⟨w', [], .of_turns hturns hids₁ hturn ?_ (fun _ => hends) hwork⟩
    simp [Route.Allows, Deed.IsAnnouncement]

/-- Rows of which some are not settled. -/
theorem Store.Orderly.live_nonempty {s : Store} (hs : s.Orderly)
    (h : ¬ ∀ e ∈ s.listRows, e.status.isSettled = true) : s.live.Nonempty := by
  simp only [not_forall] at h
  obtain ⟨e, he, hstatus⟩ := h
  exact ⟨e.id, Store.mem_live.mpr ⟨e, hs.mem_listRows_iff.mp he, by simpa using hstatus⟩⟩

/-- **As long as something is left to do**, a run goes on. -/
theorem Route.Reached.goesOn (h : route.Reached script m w claimed)
    (hids : w.ids.Lasts) (hleases : route.mode = .outbox → w.LeasesEnd claimed)
    (hdone : ¬ route.Done w) : ∃ w' claimed', route.GoesOn m w claimed w' claimed' := by
  cases route with
  | memory =>
    obtain ⟨w', hgoes⟩ := Route.goesOn_memory h hids hdone
    exact ⟨w', claimed, hgoes⟩
  | outbox =>
    exact Route.goesOn_outbox h hids (hleases rfl) (h.orderly.live_nonempty hdone)
  | transport =>
    obtain ⟨w', hgoes⟩ := Route.goesOn_deliver (Or.inl rfl) h hids nofun hdone
    exact ⟨w', claimed, hgoes⟩
  | relay =>
    by_cases hmessages : w.transport.messages = []
    · -- Only rows are left.
      exact Route.goesOn_relay h hids (hleases rfl)
        (h.orderly.live_nonempty fun hrows => hdone ⟨hrows, hmessages⟩)
    · obtain ⟨w', hgoes⟩ := Route.goesOn_deliver (Or.inr rfl) h hids hleases hmessages
      exact ⟨w', claimed, hgoes⟩

/-- By induction on the work that is left. -/
theorem Route.Reached.ends (h : route.Reached script m w claimed)
    (hleases : route.mode = .outbox → w.LeasesEnd claimed)
    (hids : IdSupply.Lasts ⟨w.ids.next + route.work m w claimed⟩) :
    ∃ deeds w' claimed', Turns (w, claimed) deeds (w', claimed') ∧
      (∀ d ∈ deeds, route.Allows m d ∧ ¬ d.IsAnnouncement) ∧ route.Done w' ∧ w'.ids.Lasts := by
  induction hwork : route.work m w claimed using Nat.strong_induction_on
    generalizing w claimed with
  | _ n ih =>
    subst hwork
    have hlasts : w.ids.Lasts := hids.mono (Nat.le_add_right _ _)
    by_cases hdone : route.Done w
    · exact ⟨[], w, claimed, .refl, by simp, hdone, hlasts⟩
    · obtain ⟨w₁, claimed₁, ⟨deeds, hturns, hdeeds⟩, hleases₁, hless, hdrawn⟩ :=
        h.goesOn hlasts hleases hdone
      have hreached := h.further hturns fun d hd => (hdeeds d hd).1
      -- What has been drawn comes off the work that is left.
      obtain ⟨deeds', w', claimed', hturns', hdeeds', hend⟩ :=
        ih _ hless hreached hleases₁ (hids.mono hdrawn) rfl
      exact ⟨deeds ++ deeds', w', claimed', hturns.trans hturns',
        List.forall_mem_append.mpr ⟨hdeeds, hdeeds'⟩, hend⟩

/-- **Every route gets done.**  From wherever a run on one route is, whatever has been
    done in it so far, it can go on without a new order until nothing is left to do,
    and then every order is where the retry machine ends.  No row may have been leased
    at the last instant there is, and the ids have to last for the work that is left. -/
theorem Route.Reached.gets_done (h : route.Reached script m w claimed)
    (hleases : route.mode = .outbox → w.LeasesEnd claimed)
    (hids : IdSupply.Lasts ⟨w.ids.next + route.work m w claimed⟩) :
    ∃ deeds w' claimed', Turns (w, claimed) deeds (w', claimed') ∧
      (∀ d ∈ deeds, route.Allows m d ∧ ¬ d.IsAnnouncement) ∧ route.Done w' ∧
      ∀ id, (w.store.orders.find? id).isSome →
        ∃ o, w'.store.orders.find? id = some o ∧ w'.standing o = .after (script id) m m := by
  obtain ⟨deeds, w', claimed', hturns, hdeeds, hdone, hlasts⟩ := h.ends hleases hids
  refine ⟨deeds, w', claimed', hturns, hdeeds, hdone, fun id hid => ?_⟩
  obtain ⟨o, ho⟩ := Option.isSome_iff_exists.mp (hturns.keeps_orders h.orderly hid)
  have hafter := h.further hturns fun d hd => (hdeeds d hd).1
  obtain ⟨hm, hfresh, hreceives, hall, hallowed⟩ := hafter
  exact ⟨o, ho, hall.standing_end hm hfresh hreceives hallowed hdone hlasts ho⟩

end routes

/-- An order that was accepted for the relay and will fail at its first attempt can be
    taken through its second. -/
theorem Route.Reached.gets_done_relayed :
    ∃ script w deeds w' claimed' o, Route.relay.Reached script 2 w [] ∧ ¬ Route.relay.Done w ∧
      Turns (w, []) deeds (w', claimed') ∧ Route.relay.Done w' ∧
      w'.store.orders.find? ⟨.versionFour 0⟩ = some o ∧ w'.standing o = {
        status := .processed
        retryCount := 1
        failureReason := none
        calls := 2
        letter := none } := by
  obtain ⟨script, hscript⟩ : ∃ script : OrderId → Nat → Option String, script =
      fun _ k => if k = 0 then some "refused" else none := ⟨_, rfl⟩
  obtain ⟨w₀, hw₀⟩ : ∃ w₀ : World, w₀ = .following script 2 := ⟨_, rfl⟩
  have hfresh : w₀.IsFresh script := hw₀ ▸ World.isFresh_following script 2
  have hplay : (w₀.play [.accept .outbox none]).map (fun w =>
        ((w.store.orders.find? ⟨.versionFour 0⟩).isSome, w.store.listRows.map (·.status),
          w.ids.next + Route.relay.work 2 w [])) = some (true, [.pending], 6) := by
    rw [hw₀, hscript]
    decide +kernel
  obtain ⟨w, hw, heq⟩ := Option.map_eq_some_iff.mp hplay
  simp only [Prod.mk.injEq] at heq
  obtain ⟨hknown, hrows, hwork⟩ := heq
  obtain ⟨deeds₀, hturns₀, hdeeds₀⟩ : Unfolds (Route.relay.Allows 2) w₀ w := by
    refine World.play_unfolds (fun a ha => ⟨fun _ => ?_, fun d hd => ?_⟩) hw
    all_goals
      obtain rfl := List.mem_singleton.mp ha
    · trivial
    · cases d <;> first | exact hd | trivial
  have hreached : Route.relay.Reached script 2 w [] :=
    .run (by decide) hfresh (fun _ => hw₀ ▸ Nat.le_refl 2) hturns₀ hdeeds₀
  -- The only row waits.
  obtain ⟨e₀, hlist, hpending⟩ := List.map_eq_singleton_iff.mp hrows
  have hleases : w.LeasesEnd [] := fun row e he hprocessing => by
    obtain rfl := hreached.orderly.rows.own he
    have hmem := hreached.orderly.mem_listRows_iff.mpr he
    rw [hlist, List.mem_singleton] at hmem
    rw [hmem, hpending] at hprocessing
    cases hprocessing
  obtain ⟨deeds, w', claimed', hturns, -, hdone, hall⟩ :=
    hreached.gets_done (fun _ => hleases) (by rw [hwork]; unfold IdSupply.Lasts; decide)
  obtain ⟨o, ho, hstanding⟩ := hall _ hknown
  refine ⟨script, w, deeds, w', claimed', o, hreached, fun h => ?_, hturns, hdone, ho, ?_⟩
  · have hsettled := h.1 e₀ (hlist ▸ List.mem_singleton_self e₀)
    rw [hpending] at hsettled
    cases hsettled
  · rw [hstanding, hscript]
    rfl

end OrderFlow
