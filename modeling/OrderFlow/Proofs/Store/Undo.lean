import OrderFlow.Proofs.Store.View

/-! # Transactions that leave nothing behind

    An open transaction has changed nothing but its own entry among the
    open transactions and the locks that it has taken.  So the store that
    its end would leave, if it ended without a commit, stays the same from
    its begin on (`Ready.left`), and at its begin that is the store before
    it, up to the number that has been used up (`Orderly.close_begun`).

    The calls on the store are looked at here from states in which the
    transaction can have every lock that it asks for.  There none of them
    waits. -/

namespace OrderFlow.Store

variable {t : TxId} {s s' : Store} {tx : Transaction}

/-! ## What the end of a transaction leaves -/

@[simp] theorem close_update (s : Store) (t : TxId) (tx : Transaction) :
    (s.update t tx).close t = s.close t := by
  unfold update close
  rw [Table.erase_put]

/-- A lock that was free, or its own, goes with the transaction. -/
theorem close_take {key : LockKey} (hfree : s.lockable t key = true) :
    (s.take t key).close t = s.close t := by
  cases htx : s.opened.find? t with
  | none => simp only [take, htx]
  | some tx =>
    by_cases hk : key ∈ tx.held
    · rw [take_of_mem htx hk]
    · have hlocks : List.filter (fun e => decide (e.2 ≠ t)) (s.locks.put key t) =
          List.filter (fun e => decide (e.2 ≠ t)) s.locks := by
        apply Table.filter_put
        · simp
        · intro u hu
          have hut : u = t := lockable_iff.mp hfree u hu
          simp [hut]
      simp only [take, htx, hk, if_false, close, hlocks, Table.erase_put]

/-- Nobody holds a lock under a number that was never given out. -/
theorem Orderly.locks_of_nextTx (h : s.Orderly) :
    List.filter (fun e => decide (e.2 ≠ s.nextTx)) s.locks = s.locks := by
  refine List.filter_eq_self.mpr fun e he => ?_
  have hlock : s.locks.find? e.1 = some e.2 := h.locks.find?_eq_some_iff.mpr he
  obtain ⟨tx, htx, -⟩ := h.owned.mp hlock
  have hlt : e.2 < s.nextTx := h.below htx
  simpa using Nat.ne_of_lt hlt

/-- **A transaction that ends as it has begun** has used up a number. -/
theorem Orderly.close_begun (h : s.Orderly) :
    s.begun.close s.nextTx = { s with nextTx := s.nextTx + 1 } := by
  have hopened : (s.opened.put s.nextTx {}).erase s.nextTx = s.opened := by
    rw [Table.erase_put, Table.erase_of_find?_none h.nextTx_free]
  have hlocks := h.locks_of_nextTx
  unfold begun Store.close
  dsimp only
  rw [hlocks, hopened]

/-! ## Transactions that need not wait -/

/-- Nobody holds any of the locks. -/
def Unheld (s : Store) (keys : List LockKey) : Prop :=
  ∀ key ∈ keys, s.locks.find? key = none

/-- **Ready**: the open transaction `t` has come to `tx`, it can have each of
    the locks `keys` at once, and without a commit its end would leave the
    store `left`. -/
structure Ready (t : TxId) (tx : Transaction) (keys : List LockKey) (left s : Store) : Prop where
  orderly : s.Orderly
  opened : s.opened.find? t = some tx
  free : ∀ key ∈ keys, s.lockable t key = true
  left : s.close t = left

section ready
variable {keys : List LockKey} {left : Store}

/-- A transaction begins ready if nobody holds what it needs. -/
theorem Orderly.ready_begun (h : s.Orderly) (hfree : s.Unheld keys) :
    Ready s.nextTx {} keys { s with nextTx := s.nextTx + 1 } s.begun where
  orderly := h.start
  opened := by simp [opened_begun]
  free := by
    intro key hkey
    have hnone : s.begun.locks.find? key = none := hfree key hkey
    rw [lockable_iff, hnone]
    simp
  left := h.close_begun

theorem Ready.setAvailable (h : Ready t tx keys left s) (b : Bool) :
    Ready t tx keys { left with available := b } { s with available := b } where
  orderly := h.orderly.setAvailable b
  opened := h.opened
  free := h.free
  left := by
    rw [← h.left]
    rfl

/-- What would be left has the same committed tables. -/
theorem Ready.sameTables (h : Ready t tx keys left s) : SameTables s left :=
  h.left ▸ sameTables_close s t

theorem Ready.orderIn_id (h : Ready t tx keys left s) {id : OrderId} {o : Order}
    (ho : left.orderIn tx id = some o) : o.id = id := by
  rw [← h.sameTables.orderIn] at ho
  exact h.orderly.orderIn_id h.opened ho

/-- **Under a lock that can be had at once** a call answers as the tables that
    would be left say, and keeps the transaction ready. -/
theorem gives_underLock {α : Type} {m : StoreCall α} {key : LockKey} {a : α} {tx' : Transaction}
    {act : Store → Transaction → Except StoreError α × Transaction} (hm : m = underLock t key act)
    (hkey : key ∈ keys) (hheld : ∀ s tx, (act s tx).2.held = tx.held)
    (horderly : ∀ {s s' r}, s.Orderly → m s = some (r, s') → s'.Orderly)
    (hanswer : ∀ {s}, SameTables s left → act s (tx.hold key) = (.ok a, tx')) :
    Attempt.Gives (Ready t tx keys left) m a (Ready t tx' keys left) := by
  intro s hs
  have htx := hs.opened
  have hfree := hs.free key hkey
  have hact := hanswer hs.sameTables
  have hcall : underLock t key act s = some (.ok a, (s.take t key).update t tx') := by
    unfold underLock
    simp only [htx, hfree, if_true, hact]
  obtain ⟨tx₀, -, hp⟩ := underLock_eq_some hheld hcall
  obtain rfl := hp.tx_eq htx
  rw [hact] at hp
  rw [← hm] at hcall
  refine ⟨_, hcall, horderly hs.orderly hcall, hp.after, ?_, ?_⟩
  · intro k hk
    rw [hp.lockable_eq]
    exact hs.free k hk
  · rw [close_update, close_take hfree, hs.left]

theorem gives_readLetter (t : TxId) (id : OrderId) :
    Attempt.Gives (Ready t tx keys left) (readLetter t id) (left.letterIn tx id)
      (Ready t tx keys left) := by
  intro s hs
  have htx := hs.opened
  refine ⟨s, ?_, hs⟩
  rw [← hs.sameTables.letterIn]
  simp only [readLetter, readView, htx]

theorem gives_holdOrder {id : OrderId} (hkey : .order id ∈ keys) :
    Attempt.Gives (Ready t tx keys left) (holdOrder t id) (left.orderIn tx id)
      (Ready t (tx.hold (.order id)) keys left) := by
  refine gives_underLock (holdOrder_eq t id) hkey (fun _ _ => rfl) (fun h hs => h.holdOrder hs) ?_
  intro s hsame
  rw [orderIn_hold, hsame.orderIn]

theorem gives_writeOrder {o : Order} (hkey : .order o.id ∈ keys) :
    Attempt.Gives (Ready t tx keys left) (writeOrder t o) ()
      (Ready t ((tx.hold (.order o.id)).putOrder o) keys left) :=
  gives_underLock (writeOrder_eq t o) hkey (fun _ _ => rfl) (fun h hs => h.writeOrder hs)
    fun _ => rfl

theorem gives_writeRow {e : OutboxRow} (hkey : .row e.id ∈ keys) :
    Attempt.Gives (Ready t tx keys left) (writeRow t e) ()
      (Ready t ((tx.hold (.row e.id)).putRow e.id e) keys left) :=
  gives_underLock (writeRow_eq t e) hkey (fun _ _ => rfl) (fun h hs => h.writeRow hs)
    fun _ => rfl

theorem gives_writeLetter {d : DeadLetter} (hkey : .deadLetter d.order ∈ keys) :
    Attempt.Gives (Ready t tx keys left) (writeLetter t d) ()
      (Ready t ((tx.hold (.deadLetter d.order)).putLetter d.order (some d)) keys left) :=
  gives_underLock (writeLetter_eq t d) hkey (fun _ _ => rfl) (fun h hs => h.writeLetter hs)
    fun _ => rfl

theorem gives_dropLetter {id : OrderId} (hkey : .deadLetter id ∈ keys) :
    Attempt.Gives (Ready t tx keys left) (dropLetter t id) (left.letterIn tx id).isSome
      (Ready t ((tx.hold (.deadLetter id)).putLetter id none) keys left) := by
  refine gives_underLock (dropLetter_eq t id) hkey (fun _ _ => rfl)
    (fun h hs => h.dropLetter hs) ?_
  intro s hsame
  rw [letterIn_hold, hsame.letterIn]
  rfl

end ready

end OrderFlow.Store
