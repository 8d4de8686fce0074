import OrderFlow.Proofs.Operations
import OrderFlow.Proofs.Store.Undo

/-! # Transactions followed to their end

    Up to its commit an operation has only staged writes, taken locks and
    drawn ids.  So at every point there is a world that its failure would
    leave, and here that one is followed step by step (`World.Ready`): what
    others make available or unavailable shows in it, and what the operation
    does inside its transaction does not.

    From the same steps it follows that the operation need not wait.  A
    transaction of its own then ends in one of four ways, and each leaves a
    known world (`World.Transacted`). -/

namespace OrderFlow

open Attempt

/-! ## Worlds that differ in nothing that was written -/

namespace World

/-- **Unchanged**: the tables, the locks and the open transactions, the queue
    in memory and the messages of the transport are as they were.  Others
    may have changed what is available, time may have passed, and ids and
    the numbers of transactions may have been used up. -/
structure Unchanged (w w' : World) : Prop where
  store : ∃ b n, w'.store = { w.store with available := b, nextTx := n }
  queue : w'.queue = w.queue
  transport : ∃ b, w'.transport = { w.transport with available := b }

variable {w w' w'' : World} {tx : Transaction}

theorem Unchanged.refl (w : World) : w.Unchanged w where
  store := ⟨w.store.available, w.store.nextTx, rfl⟩
  queue := rfl
  transport := ⟨w.transport.available, rfl⟩

theorem Unchanged.trans (h₁ : w.Unchanged w') (h₂ : w'.Unchanged w'') : w.Unchanged w'' := by
  obtain ⟨b₁, n₁, hs₁⟩ := h₁.store
  obtain ⟨b₂, n₂, hs₂⟩ := h₂.store
  obtain ⟨c₁, ht₁⟩ := h₁.transport
  obtain ⟨c₂, ht₂⟩ := h₂.transport
  refine ⟨⟨b₂, n₂, ?_⟩, h₂.queue.trans h₁.queue, ⟨c₂, ?_⟩⟩
  · rw [hs₂, hs₁]
  · rw [ht₂, ht₁]

theorem Unchanged.sameTables (h : w.Unchanged w') : w.store.SameTables w'.store := by
  obtain ⟨b, n, hs⟩ := h.store
  rw [hs]
  exact ⟨rfl, rfl, rfl⟩

theorem unchanged_disturb (w : World) (d : Disturbance) : w.Unchanged (w.disturb d) where
  store := ⟨_, w.store.nextTx, rfl⟩
  queue := rfl
  transport := ⟨_, rfl⟩

theorem unchanged_nextDisturbance (w : World) : w.Unchanged w.nextDisturbance := by
  unfold nextDisturbance
  split
  · exact Unchanged.refl w
  · next d rest _ =>
    have h := unchanged_disturb w d
    exact ⟨h.store, h.queue, h.transport⟩

/-- The same writes put over the same tables. -/
theorem Unchanged.absorb (h : w.Unchanged w') (tx : Transaction) :
    Unchanged { w with store := w.store.absorb tx } { w' with store := w'.store.absorb tx } := by
  obtain ⟨b, n, hs⟩ := h.store
  refine ⟨⟨b, n, ?_⟩, h.queue, h.transport⟩
  show w'.store.absorb tx = _
  rw [hs]
  rfl

/-- **Calm**: store and transport are available and nobody is about to change
    that. -/
structure Calm (w : World) : Prop where
  store : w.store.available = true
  transport : w.transport.available = true
  disturbances : w.disturbances = []

theorem Calm.nextDisturbance_eq (h : w.Calm) : w.nextDisturbance = w :=
  Call.nextDisturbance_eq h.disturbances

/-! ## Inside a transaction -/

/-- **Ready**: the open transaction `t` has come to `tx`, can have each of the
    locks `keys` at once, and without a commit its end would leave the world
    `left`. -/
structure Ready (t : TxId) (tx : Transaction) (keys : List LockKey) (left w : World) : Prop where
  store : Store.Ready t tx keys left.store w.store
  rest : w = { left with store := w.store }

/-- The world that a transaction would leave that has only just begun. -/
def opening (w : World) : World :=
  { w.nextDisturbance with
    store := { w.nextDisturbance.store with nextTx := w.nextDisturbance.store.nextTx + 1 } }

theorem unchanged_opening (w : World) : w.Unchanged w.opening := by
  refine (unchanged_nextDisturbance w).trans ⟨⟨_, _, rfl⟩, rfl, ⟨_, rfl⟩⟩

theorem nextDisturbance_now (w : World) : w.nextDisturbance.now = w.now := by
  unfold nextDisturbance
  split <;> rfl

/-- The world after a call of the processor for an order. -/
def processorCalled (w : World) (id : OrderId) : World :=
  let r := w.processor.react w.processor.calls id
  let processor := { w.processor with calls := w.processor.calls ++ [id] }
  ({ w with processor := processor }.advance r.takesMs).disturb r.disturbance

theorem unchanged_processorCalled (w : World) (id : OrderId) :
    w.Unchanged (w.processorCalled id) where
  store := ⟨_, w.store.nextTx, rfl⟩
  queue := rfl
  transport := ⟨_, rfl⟩

section calls
variable {t : TxId} {tx' : Transaction} {keys : List LockKey} {left : World} {α : Type}

/-- A call on the store happens inside the transaction. -/
theorem gives_inStore {m : StoreCall α} {a : α}
    (hm : Gives (Store.Ready t tx keys left.store) m a (Store.Ready t tx' keys left.store)) :
    Gives (Ready t tx keys left) (Call.inStore m) a (Ready t tx' keys left) := by
  intro w hw
  obtain ⟨s', hs, hready⟩ := hm w.store hw.store
  have hpart : m.onPart World.store (fun s w => { w with store := s }) w =
      some (.ok a, { w with store := s' }) := onPart_eq_some_iff.mpr ⟨s', hs, rfl⟩
  refine ⟨{ w with store := s' }, mapError_eq_some_iff.mpr ⟨.ok a, hpart, rfl⟩, hready, ?_⟩
  rw [hw.rest]

/-- Ids that are drawn stay drawn. -/
theorem gives_freshId : Gives (Ready t tx keys left) Call.freshId (.versionFour left.ids.next)
    (Ready t tx keys { left with ids := ⟨left.ids.next + 1⟩ }) := by
  intro w hw
  obtain ⟨s, rfl⟩ : ∃ s, w = { left with store := s } := ⟨_, hw.rest⟩
  exact ⟨_, rfl, hw.store, rfl⟩

theorem gives_now : Gives (Ready t tx keys left) Call.now left.now (Ready t tx keys left) := by
  intro w hw
  obtain ⟨s, rfl⟩ : ∃ s, w = { left with store := s } := ⟨_, hw.rest⟩
  exact ⟨_, rfl, hw⟩

/-- What others make available or not shows at once. -/
theorem Ready.disturb (h : Ready t tx keys left w) (d : Disturbance) :
    Ready t tx keys (left.disturb d) (w.disturb d) := by
  obtain ⟨s, rfl⟩ : ∃ s, w = { left with store := s } := ⟨_, h.rest⟩
  have havailable : s.available = left.store.available := by
    rw [← h.store.left]
    rfl
  refine ⟨?_, rfl⟩
  show Store.Ready t tx keys { left.store with available := d.store.getD left.store.available }
    { s with available := d.store.getD s.available }
  rw [havailable]
  exact h.store.setAvailable _

theorem Ready.nextDisturbance (h : Ready t tx keys left w) :
    Ready t tx keys left.nextDisturbance w.nextDisturbance := by
  have hsame : w.disturbances = left.disturbances := by rw [h.rest]
  unfold World.nextDisturbance
  rw [hsame]
  cases left.disturbances with
  | nil => exact h
  | cons d rest =>
    have hd := h.disturb d
    refine ⟨hd.store, ?_⟩
    dsimp only
    rw [hd.rest]

theorem gives_callProcessor (id : OrderId) : Gives (Ready t tx keys left) (Call.callProcessor id)
    (left.processor.react left.processor.calls id).failure
    (Ready t tx keys (left.processorCalled id)) := by
  intro w hw
  obtain ⟨s, rfl⟩ : ∃ s, w = { left with store := s } := ⟨_, hw.rest⟩
  have hworked (p : Processor) (ms : Nat) :
      Ready t tx keys ({ left with processor := p }.advance ms)
        ({ left with store := s, processor := p }.advance ms) := ⟨hw.store, rfl⟩
  exact ⟨_, rfl, (hworked _ _).disturb _⟩

end calls

/-! ## A transaction of its own -/

/-- **How a transaction of its own ends**, when its body answers so that `Q`
    holds or fails so that `E` does: of the answer or the failure, and of
    the world that would be left. -/
inductive Transacted {α : Type} (w : World) (Q : α → Transaction → World → Prop)
    (E : OperationError → World → Prop) : Except OperationError α → World → Prop where
  /-- It has not begun. -/
  | notBegun (h : w.nextDisturbance.store.available = false) :
    Transacted w Q E (.error (.store Store.offline)) w.nextDisturbance
  /-- Its body has failed, and it was abandoned. -/
  | failed {e : OperationError} {left : World} (h : E e left) : Transacted w Q E (.error e) left
  /-- Its commit was refused. -/
  | refused {a : α} {tx : Transaction} {left : World} (h : Q a tx left)
    (hoffline : left.nextDisturbance.store.available = false) :
    Transacted w Q E (.error (.store Store.offline)) left.nextDisturbance
  /-- It has committed. -/
  | committed {a : α} {tx : Transaction} {left : World} (h : Q a tx left) :
    Transacted w Q E (.ok a)
      { left.nextDisturbance with store := left.nextDisturbance.store.absorb tx }

section transact
variable {t : TxId} {keys : List LockKey} {left : World} {α : Type}

/-- A transaction begins ready if nobody holds what it needs. -/
theorem ready_opening (hw : w.store.Orderly) (hfree : w.store.Unheld keys)
    (havailable : w.nextDisturbance.store.available = true) :
    ∃ t w', Call.start w = some (.ok t, w') ∧ Ready t {} keys w.opening w' := by
  have helse := elsewhere_nextDisturbance w
  have hfree' : w.nextDisturbance.store.Unheld keys := by
    obtain ⟨b, hb⟩ := helse.store
    rw [hb]
    exact hfree
  have hs : Store.start w.nextDisturbance.store =
      some (.ok w.nextDisturbance.store.nextTx, w.nextDisturbance.store.begun) := by
    unfold Store.start
    rw [if_pos havailable]
    rfl
  exact ⟨_, { w.nextDisturbance with store := w.nextDisturbance.store.begun },
    Call.inStore_of_eq_some hs, (helse.orderly hw).ready_begun hfree', rfl⟩

/-- Without a commit the end leaves what would be left. -/
theorem Ready.close (h : Ready t tx keys left w) :
    { w with store := w.store.close t } = left := by
  obtain ⟨s, rfl⟩ : ∃ s, w = { left with store := s } := ⟨_, h.rest⟩
  rw [h.store.left]

theorem Ready.abandon (h : Ready t tx keys left w) :
    Call.inStore (Store.abandon t) w = some (.ok (), left) := by
  have hs : Store.abandon t w.store = some (.ok (), w.store.close t) := by
    unfold Store.abandon
    rw [h.store.opened]
  have hcall := Call.inStore_of_eq_some hs
  rwa [h.close] at hcall

/-- **A commit** is refused and leaves what would be left, or it puts over
    that what was staged. -/
theorem Ready.commit (h : Ready t tx keys left w) :
    (left.nextDisturbance.store.available = false ∧
        Call.commit t w = some (.error (.store Store.offline), left.nextDisturbance)) ∨
      Call.commit t w = some (.ok (),
        { left.nextDisturbance with store := left.nextDisturbance.store.absorb tx }) := by
  have hnext := h.nextDisturbance
  have hopened := hnext.store.opened
  rw [Call.commit_eq, ← hnext.close]
  cases havailable : w.nextDisturbance.store.available with
  | false =>
    have hs : Store.commit t w.nextDisturbance.store =
        some (.error Store.offline, w.nextDisturbance.store.close t) := by
      simp [Store.commit, hopened, havailable]
    exact Or.inl ⟨havailable, Call.inStore_of_eq_some hs⟩
  | true =>
    have hs : Store.commit t w.nextDisturbance.store =
        some (.ok (), (w.nextDisturbance.store.absorb tx).close t) := by
      simp [Store.commit, hopened, havailable]
    exact Or.inr (Call.inStore_of_eq_some hs)

/-- **A transaction of its own does not wait** if its body does not. -/
theorem transact_transacted {body : TxId → Call α} {Q : α → Transaction → World → Prop}
    {E : OperationError → World → Prop} (hw : w.store.Orderly) (hfree : w.store.Unheld keys)
    (hbody : ∀ t, Total (Ready t {} keys w.opening) (body t)
      (fun a w' => ∃ tx left, Q a tx left ∧ Ready t tx keys left w')
      (fun e w' => ∃ tx left, E e left ∧ Ready t tx keys left w')) :
    ∃ r w', Call.transact body w = some (r, w') ∧ Transacted w Q E r w' := by
  cases havailable : w.nextDisturbance.store.available with
  | false =>
    have hs : Store.start w.nextDisturbance.store =
        some (.error Store.offline, w.nextDisturbance.store) := by
      simp [Store.start, havailable]
    have hstart : Call.start w = some (.error (.store Store.offline), w.nextDisturbance) :=
      Call.inStore_of_eq_some hs
    exact ⟨_, _, Call.transact_of_start_error hstart, .notBegun havailable⟩
  | true =>
    obtain ⟨t, w₁, hstart, hready⟩ := ready_opening hw hfree havailable
    rcases hbody t w₁ hready with ⟨a, w₂, hb, tx, left, hq, hend⟩ | ⟨e, w₂, hb, tx, left, he, hend⟩
    · rcases hend.commit with ⟨hoffline, hcommit⟩ | hcommit
      · exact ⟨_, _, Call.transact_of_commit_error hstart hb hcommit, .refused hq hoffline⟩
      · exact ⟨_, _, Call.transact_of_ok hstart hb hcommit, .committed hq⟩
    · exact ⟨_, _, Call.transact_of_body_error hstart hb hend.abandon, .failed he⟩

end transact

end World

end OrderFlow
