import OrderFlow.Proofs.Transact

/-! # What is around the store

    Work in the store touches neither messages nor the queue in memory, and
    it does not change what the processor does.  Others may make the store
    or the transport unavailable meanwhile; in a steady world nobody does,
    and then the world stays steady. -/

namespace OrderFlow

open Attempt

/-! ## Steady worlds -/

namespace World

/-- **Steady**: store and transport are available, and nothing is going to
    change that, not even a send or a call of the processor. -/
structure Steady (w : World) : Prop extends Calm w where
  sends : w.sendsToOutage = 0
  reactions : ∀ calls id, (w.processor.react calls id).disturbance = {}

/-- **Nothing has happened around the store**, availability apart. -/
structure Around (w w' : World) : Prop where
  transport : ∃ b, w'.transport = { w.transport with available := b }
  queue : w'.queue = w.queue
  react : w'.processor.react = w.processor.react
  steady : w.Steady → w'.Steady

variable {w w' : World}

theorem around_chains : Chains Around where
  refl w := ⟨⟨w.transport.available, rfl⟩, rfl, rfl, id⟩
  trans := by
    intro w₁ w₂ w₃ h₁ h₂
    obtain ⟨b, hb⟩ := h₁.transport
    obtain ⟨c, hc⟩ := h₂.transport
    refine ⟨⟨c, ?_⟩, h₂.queue.trans h₁.queue, h₂.react.trans h₁.react,
      fun h => h₂.steady (h₁.steady h)⟩
    rw [hc, hb]

/-- The messages have not been touched. -/
theorem Around.messages (h : Around w w') : w'.transport.messages = w.transport.messages := by
  obtain ⟨b, hb⟩ := h.transport
  rw [hb]

theorem Around.deadLetters (h : Around w w') :
    w'.transport.deadLetters = w.transport.deadLetters := by
  obtain ⟨b, hb⟩ := h.transport
  rw [hb]

theorem around_nextDisturbance (w : World) : Around w w.nextDisturbance := by
  cases hd : w.disturbances with
  | nil =>
    rw [Call.nextDisturbance_eq hd]
    exact around_chains.refl w
  | cons d rest =>
    have hnext : w.nextDisturbance = { w.disturb d with disturbances := rest } := by
      unfold nextDisturbance
      rw [hd]
    rw [hnext]
    refine ⟨⟨_, rfl⟩, rfl, rfl, fun h => ?_⟩
    -- A steady world has no disturbance to come.
    rw [h.disturbances] at hd
    cases hd

theorem around_processorCalled (w : World) (id : OrderId) : Around w (w.processorCalled id) where
  transport := ⟨_, rfl⟩
  queue := rfl
  react := rfl
  steady h := by
    have hcalm := h.reactions w.processor.calls id
    refine ⟨⟨?_, ?_, h.disturbances⟩, h.sends, h.reactions⟩
    · show (w.processor.react w.processor.calls id).disturbance.store.getD w.store.available = true
      rw [hcalm]
      exact h.store
    · show (w.processor.react w.processor.calls id).disturbance.transport.getD
        w.transport.available = true
      rw [hcalm]
      exact h.transport

end World

/-! ## Calls on the store -/

namespace Store

/-- The store is as available as it was. -/
def AsAvailable (s s' : Store) : Prop :=
  s'.available = s.available

theorem asAvailable_chains : Chains AsAvailable where
  refl _ := rfl
  trans h₁ h₂ := h₂.trans h₁

section calls
variable {t : TxId} {α : Type}

theorem available_take (s : Store) (t : TxId) (key : LockKey) :
    (s.take t key).available = s.available := by
  unfold take
  split
  · rfl
  · split <;> rfl

theorem available_takeAll (s : Store) (t : TxId) (keys : List LockKey) :
    (s.takeAll t keys).available = s.available := by
  unfold takeAll
  induction keys generalizing s with
  | nil => rfl
  | cons key rest ih => rw [List.foldl_cons, ih, available_take]

theorem moves_readView (f : Store → Transaction → α) : Moves AsAvailable (readView t f) := by
  intro s r s' h
  obtain ⟨tx, -, -, rfl⟩ := readView_eq_some h
  rfl

theorem moves_stageWrite (f : Transaction → Transaction) :
    Moves AsAvailable (stageWrite t f) := by
  intro s r s' h
  unfold stageWrite at h
  split at h
  · cases h
  · cases h
    rfl

theorem moves_takeLock (key : LockKey) : Moves AsAvailable (takeLock t key) := by
  intro s r s' h
  unfold takeLock at h
  split at h
  · cases h
  · split at h
    · cases h
      exact available_take s t key
    · cases h

theorem moves_writeOrder (o : Order) : Moves AsAvailable (writeOrder t o) :=
  (moves_takeLock _).bind asAvailable_chains fun _ => moves_stageWrite _

theorem moves_holdOrder (id : OrderId) : Moves AsAvailable (holdOrder t id) :=
  (moves_takeLock _).bind asAvailable_chains fun _ => moves_readView _

theorem moves_writeRow (e : OutboxRow) : Moves AsAvailable (writeRow t e) :=
  (moves_takeLock _).bind asAvailable_chains fun _ => moves_stageWrite _

theorem moves_changeRow (id : RowId) (f : OutboxRow → OutboxRow) :
    Moves AsAvailable (changeRow t id f) := by
  refine (moves_takeLock _).bind asAvailable_chains fun _ => ?_
  refine (moves_readView _).bind asAvailable_chains fun found => ?_
  cases found with
  | none => exact Moves.fail asAvailable_chains _
  | some e => exact moves_stageWrite _

theorem moves_writeLetter (d : DeadLetter) : Moves AsAvailable (writeLetter t d) :=
  (moves_takeLock _).bind asAvailable_chains fun _ => moves_stageWrite _

theorem moves_dropLetter (id : OrderId) : Moves AsAvailable (dropLetter t id) := by
  refine (moves_takeLock _).bind asAvailable_chains fun _ => ?_
  refine (moves_readView _).bind asAvailable_chains fun found => ?_
  exact (moves_stageWrite _).bind asAvailable_chains fun _ => Moves.pure asAvailable_chains _

theorem moves_claimDue (limit : Nat) (now : Instant) :
    Moves AsAvailable (claimDue t limit now) := by
  intro s r s' h
  unfold claimDue at h
  split at h
  · cases h
  · cases h
    exact available_takeAll s t _

theorem moves_endStaleLeases (limit : Instant) : Moves AsAvailable (endStaleLeases t limit) := by
  intro s r s' h
  unfold endStaleLeases at h
  split at h
  · cases h
  · dsimp only at h
    split at h
    · cases h
    · cases h
      exact available_takeAll s t _

theorem moves_leaseAll (c : Claimant) (now : Instant) (rows : List OutboxRow) :
    Moves AsAvailable (c.leaseAll t now rows) := by
  induction rows with
  | nil => exact Moves.pure asAvailable_chains _
  | cons e rest ih => exact (moves_changeRow e.id _).bind asAvailable_chains fun _ => ih

theorem moves_abandon : Moves AsAvailable (abandon t) := by
  intro s r s' h
  obtain ⟨tx, -, -, rfl⟩ := abandon_eq_some h
  rfl

theorem moves_start : Moves AsAvailable start := by
  intro s r s' h
  obtain ⟨-, -, rfl⟩ | ⟨-, -, rfl⟩ := start_eq_some h
  · rfl
  · rfl

theorem moves_commit : Moves AsAvailable (commit t) := by
  intro s r s' h
  obtain ⟨tx, -, ⟨-, -, rfl⟩ | ⟨-, -, rfl⟩⟩ := commit_eq_some h
  · rfl
  · rfl

end calls

end Store

/-! ## Work in the store -/

namespace Call

open World

variable {t : TxId} {α : Type}

theorem around_inStore {m : StoreCall α} (hm : Moves Store.AsAvailable m) :
    Moves Around (inStore m) := by
  intro w r w' h
  obtain ⟨r₀, s', hs, -, rfl⟩ := inStore_eq_some h
  refine ⟨⟨_, rfl⟩, rfl, rfl, fun hw => ?_⟩
  have havailable : s'.available = w.store.available := hm _ _ _ hs
  exact ⟨⟨havailable.trans hw.store, hw.transport, hw.disturbances⟩, hw.sends, hw.reactions⟩

theorem around_modify_nextDisturbance :
    Moves Around (Attempt.modify World.nextDisturbance : Call Unit) :=
  Moves.modify around_nextDisturbance

theorem around_start : Moves Around start :=
  around_modify_nextDisturbance.bind around_chains fun _ => around_inStore Store.moves_start

theorem around_commit : Moves Around (commit t) :=
  around_modify_nextDisturbance.bind around_chains fun _ => around_inStore Store.moves_commit

theorem around_now : Moves Around now :=
  Moves.read around_chains _

theorem around_freshId : Moves Around freshId := by
  intro w r w' h
  cases h
  exact ⟨⟨_, rfl⟩, rfl, rfl, fun hw => ⟨⟨hw.store, hw.transport, hw.disturbances⟩, hw.sends,
    hw.reactions⟩⟩

theorem around_callProcessor (id : OrderId) : Moves Around (callProcessor id) := by
  intro w r w' h
  cases h
  exact around_processorCalled w id

theorem around_transact {body : TxId → Call α} (hbody : ∀ t, Moves Around (body t)) :
    Moves Around (transact body) :=
  moves_transact around_chains around_start hbody (fun _ => around_commit)
    fun _ => around_inStore Store.moves_abandon

end Call

section bodies
variable {t : TxId} {now : Instant} {m : Nat}

open World Call

theorem attempting_around : Attempting t Around where
  chains := around_chains
  hold id := around_inStore (Store.moves_holdOrder id)
  write o := around_inStore (Store.moves_writeOrder o)
  letter d := around_inStore (Store.moves_writeLetter d)
  call := around_callProcessor

/-- An attempt. -/
theorem around_processIn (id : OrderId) : Moves Around (processIn t id now m) :=
  attempting_around.processIn id

theorem around_process (id : OrderId) : Moves Around (process id m) :=
  around_transact fun _ => around_now.bind around_chains fun _ => around_processIn id

namespace PublishMode

variable {mode : PublishMode} {correlation : Option String}

theorem around_announce (order : OrderId) :
    Moves Around (mode.announce t order correlation now) := by
  cases mode with
  | outbox =>
    refine around_freshId.bind around_chains fun id => ?_
    exact (around_inStore (Store.moves_writeRow _)).bind around_chains fun _ =>
      Moves.pure around_chains _
  | inMemory | transport => exact Moves.pure around_chains _

/-- A new order. -/
theorem around_stageAccept : Moves Around (mode.stageAccept t correlation now) := by
  refine around_freshId.bind around_chains fun id => ?_
  refine (around_inStore (Store.moves_writeOrder _)).bind around_chains fun _ => ?_
  exact (around_announce _).bind around_chains fun _ => Moves.pure around_chains _

/-- Another chance for an order. -/
theorem around_stageReadmit (id : OrderId) : Moves Around <| mode.stageReadmit t id now := by
  refine (around_inStore (Store.moves_readView _)).bind around_chains fun letter => ?_
  split
  · exact Moves.fail around_chains _
  · refine (around_inStore (Store.moves_holdOrder id)).bind around_chains fun found => ?_
    cases found with
    | none => exact Moves.fail around_chains _
    | some o =>
      refine (around_inStore (Store.moves_dropLetter id)).bind around_chains fun existed => ?_
      split
      · refine ((Moves.ofExcept around_chains _).mapError _).bind around_chains fun o' => ?_
        refine (around_inStore (Store.moves_writeOrder o')).bind around_chains fun _ => ?_
        exact around_announce id
      · exact Moves.fail around_chains _

end PublishMode

end bodies

end OrderFlow
