import OrderFlow.Proofs.Run.Sound

/-! # Dead letters and the lives of orders

    An order's life is a walk through the statuses, and the journal tells
    it: what is committed of an order is where its committed changes lead,
    and what an open transaction sees is where its staged changes lead from
    there (`Ledger`).  In such a walk every readmission follows a failure
    of its own.

    The main statement: in every run, dead letters and failed orders go
    together, and so do their counts, reasons and times. -/

namespace OrderFlow

open World

/-! ## Lives -/

/-- **Where changes lead**: the status of an order after them, and how many
    attempts have failed. -/
inductive Life : List Change → Status → Nat → Prop where
  /-- The order is new. -/
  | accepted : Life [.accepted] .pending 0
  /-- An attempt has succeeded. -/
  | completed {history : List Change} {n : Nat} (h : Life history .pending n) :
    Life (history ++ [.completed]) .processed n
  /-- An attempt has failed and there are more to come. -/
  | postponed {history : List Change} {n m : Nat} (h : Life history .pending n)
    (hm : n + 1 < m) : Life (history ++ [.postponed m]) .pending (n + 1)
  /-- The last attempt has failed. -/
  | givenUp {history : List Change} {n m : Nat} (h : Life history .pending n)
    (hm : m ≤ n + 1) : Life (history ++ [.givenUp m]) .failed (n + 1)
  /-- The order was given another chance. -/
  | readmitted {history : List Change} {n : Nat} (h : Life history .failed n) :
    Life (history ++ [.readmitted]) .pending n

/-- Is it the last attempt that has failed? -/
def Change.isGivenUp : Change → Bool
  | .givenUp _ => true
  | _ => false

variable {history : List Change} {status : Status} {n : Nat}

/-- An order is failed when it was given up on once more often than it was
    readmitted, and otherwise both happened equally often. -/
theorem Life.balance (h : Life history status n) :
    history.countP Change.isGivenUp =
      history.count .readmitted + if status = .failed then 1 else 0 := by
  induction h with
  | accepted => rfl
  | completed h ih | postponed h hm ih | readmitted h ih | givenUp h hm ih =>
    simp_all [Change.isGivenUp]

/-- What has happened by some time is a life as well. -/
theorem Life.of_prefix (h : Life history status n) {earlier : List Change}
    (hp : earlier <+: history) : earlier = [] ∨ ∃ status' n', Life earlier status' n' := by
  -- A prefix of a longer life is all of it or a prefix of what was before.
  have snoc {history' : List Change} {c : Change} {status₁ : Status} {n₁ : Nat}
      (hlife : Life (history' ++ [c]) status₁ n₁)
      (ih : earlier <+: history' → earlier = [] ∨ ∃ status' n', Life earlier status' n')
      (hp : earlier <+: history' ++ [c]) :
      earlier = [] ∨ ∃ status' n', Life earlier status' n' := by
    rcases List.prefix_concat_iff.mp hp with rfl | hp
    · exact Or.inr ⟨_, _, hlife⟩
    · exact ih hp
  induction h with
  | accepted =>
    have hp : earlier <+: [] ++ [Change.accepted] := hp
    rcases List.prefix_concat_iff.mp hp with rfl | hp
    · exact Or.inr ⟨_, _, .accepted⟩
    · exact Or.inl (List.prefix_nil.mp hp)
  | completed h ih => exact snoc (.completed h) ih hp
  | postponed h hm ih => exact snoc (.postponed h hm) ih hp
  | givenUp h hm ih => exact snoc (.givenUp h hm) ih hp
  | readmitted h ih => exact snoc (.readmitted h) ih hp

/-- **The history tells** what has become of an order, or that there is none. -/
def Tells (history : List Change) : Option Order → Prop
  | none => history = []
  | some o => Life history o.status o.retryCount

/-! ## The journal -/

/-- **The journal tells the lives of all orders**, as they are committed and as
    open transactions see them. -/
structure Ledger (w : World) (j : Journal) : Prop where
  closed : ∀ {t}, w.store.opened.find? t = none → ∀ id, j.staged t id = []
  held : ∀ {t tx}, w.store.opened.find? t = some tx → ∀ {id}, j.staged t id ≠ [] →
    LockKey.order id ∈ tx.held
  committed : ∀ id, Tells (j.committed id) (w.store.orders.find? id)
  staged : ∀ {t tx}, w.store.opened.find? t = some tx → ∀ id,
    Tells (j.committed id ++ j.staged t id) (w.store.orderIn tx id)

section stages
variable {s : Store} {ids ids' : IdSupply} {tx tx' : Transaction} {called : List OrderId}
  {c : Option (OrderId × Change)}

/-- What a step stages is the next change in an order's life, or none. -/
theorem Stages.tells (hs : Stages s ids ids' tx called c tx') (hview : SoundFor s ids tx)
    (hlasts : ids'.Lasts) :
    (c = none ∧ ∀ i, s.orderIn tx' i = s.orderIn tx i) ∨
    (∃ id change, c = some (id, change) ∧ LockKey.order id ∈ tx'.held ∧
      (∀ i, i ≠ id → s.orderIn tx' i = s.orderIn tx i) ∧
      ∀ history, Tells history (s.orderIn tx id) →
        Tells (history ++ [change]) (s.orderIn tx' id)) := by
  have announced {mode : PublishMode} {ids₁ : IdSupply} {order : OrderId}
      {correlation : Option String} {now : Instant} {tx₁ : Transaction}
      (hann : Announced mode ids₁ ids' order correlation now tx₁ tx') (i : OrderId) :
      s.orderIn tx' i = s.orderIn tx₁ i :=
    Store.orderIn_congr (congrArg (·.find? i) hann.orders)
  cases hs with
  | rows horders hletters =>
    exact Or.inl ⟨rfl, fun i => Store.orderIn_congr (congrArg (·.find? i) horders)⟩
  | refuse hgone => exact Or.inl ⟨rfl, fun i => orderIn_withoutLetter s tx _ i⟩
  | @accept mode k _ correlation now _ hle hlt hids hann =>
    have hk : k < 2 ^ 122 := Nat.lt_of_lt_of_le (Nat.lt_of_lt_of_le hlt hids) hlasts
    refine Or.inr ⟨_, _, rfl, hann.keeps Transaction.mem_held_self, ?_, ?_⟩
    · intro i hi
      rw [announced hann]
      simp [Order.fresh, Ne.symm hi]
    · intro history hhistory
      -- There is no order under the fresh id, and no history of one.
      have hnone : s.orderIn tx ⟨.versionFour k⟩ = none :=
        hview.orderIn_eq_none (IdSupply.not_hasDrawn hle hk)
      rw [hnone] at hhistory
      obtain rfl : history = [] := hhistory
      rw [announced hann, Store.orderIn_putOrder, if_pos (Order.fresh_id _ _)]
      exact .accepted
  | readmit ho hstatus hd hann =>
    refine Or.inr ⟨_, _, rfl,
      hann.keeps order_mem_held_withoutLetter, ?_, ?_⟩
    · intro i hi
      rw [announced hann]
      simp [Ne.symm hi]
    · intro history hhistory
      rw [ho] at hhistory
      change Life history _ _ at hhistory
      rw [hstatus] at hhistory
      rw [announced hann, Store.orderIn_putOrder, if_pos (Order.moved_id _ _ _)]
      exact .readmitted hhistory
  | @attempt o now m outcome _ ho hstatus ha =>
    have hheld : LockKey.order o.id ∈ (tx.hold (.order o.id)).held := Transaction.mem_held_self
    refine Or.inr ⟨_, _, rfl, ?_, ?_, ?_⟩
    · cases ha with
      | processed | retry => exact hheld
      | failed => exact Transaction.mem_held_of_mem hheld
    · intro i hi
      cases ha <;> simp [Ne.symm hi]
    · intro history hhistory
      rw [ho] at hhistory
      have hlife : Life history o.status o.retryCount := hhistory
      rw [hstatus] at hlife
      cases ha with
      | processed =>
        rw [Store.orderIn_putOrder, if_pos (Order.tried_id _ _ _)]
        exact .completed hlife
      | retry reason hm =>
        rw [Store.orderIn_putOrder, if_pos (Order.tried_id _ _ _)]
        exact .postponed hlife hm
      | failed reason hm =>
        rw [Store.orderIn_putLetter, Store.orderIn_hold, Store.orderIn_putOrder,
          if_pos (Order.tried_id _ _ _)]
        exact .givenUp hlife hm

end stages

section runs
variable {w w' : World} {j j' : Journal} {t : TxId} {tx : Transaction}

theorem Journal.staged_note (j : Journal) (t u : TxId) (id i : OrderId) (c : Change) :
    (j.note t id c).staged u i =
      if u = t ∧ i = id then j.staged t id ++ [c] else j.staged u i := rfl

theorem Journal.staged_forget (j : Journal) (t u : TxId) (i : OrderId) :
    (j.forget t).staged u i = if u = t then [] else j.staged u i := by
  simp only [Journal.forget]

theorem ledger_empty (h : w.store = {}) : Ledger w {} where
  closed _ _ := rfl
  held _ _ hne := absurd rfl hne
  committed id := by
    rw [h]
    rfl
  staged := by
    intro t tx ht
    rw [h] at ht
    cases ht

/-- The same views, and no other transactions but such as may begin. -/
theorem Ledger.mono (hl : Ledger w j) (hs : w.store.SameTables w'.store)
    (hopened : ∀ {t}, w'.store.opened.find? t = w.store.opened.find? t) : Ledger w' j where
  closed ht := hl.closed (hopened ▸ ht)
  held ht := hl.held (hopened ▸ ht)
  committed id := by
    rw [← hs.orders]
    exact hl.committed id
  staged ht id := by
    rw [← hs.orderIn]
    exact hl.staged (hopened ▸ ht) id

theorem Ledger.start (hl : Ledger w j) (horderly : w.store.Orderly) :
    Ledger { w with store := w.store.begun } j where
  closed := by
    intro t ht
    rw [Store.opened_begun] at ht
    split at ht
    · cases ht
    · exact hl.closed ht
  held := by
    intro t tx ht id hne
    rw [Store.opened_begun] at ht
    split at ht
    · next heq => exact absurd (hl.closed (heq ▸ horderly.nextTx_free) id) hne
    · exact hl.held ht hne
  committed := hl.committed
  staged := by
    intro t tx ht id
    rw [Store.opened_begun] at ht
    split at ht
    · next heq =>
      cases ht
      -- It has changed nothing yet and sees what is committed.
      rw [hl.closed (heq ▸ horderly.nextTx_free), List.append_nil]
      exact hl.committed id
    · exact hl.staged ht id

/-- **Work inside one transaction**: the journal is right again if it is right
    about what that transaction has changed and now sees. -/
theorem Ledger.works {called : List OrderId} {tx' : Transaction} (hl : Ledger w j)
    (h : Works t called w tx w' tx') (hcommitted : j'.committed = j.committed)
    (hothers : ∀ u, u ≠ t → j'.staged u = j.staged u)
    (hheld : ∀ id, j'.staged t id ≠ [] → LockKey.order id ∈ tx'.held)
    (htells : ∀ id, Tells (j.committed id ++ j'.staged t id) (w.store.orderIn tx' id)) :
    Ledger w' j' := by
  have hsame := h.store.sameTables
  refine ⟨?_, ?_, ?_, ?_⟩
  · intro u hu i
    have hut : u ≠ t := by
      rintro rfl
      rw [h.store.after] at hu
      cases hu
    rw [hothers u hut]
    exact hl.closed (h.store.others hut ▸ hu) i
  · intro u txu hu i hne
    by_cases hut : u = t
    · subst hut
      rw [h.store.after, Option.some.injEq] at hu
      exact hu ▸ hheld i hne
    · rw [hothers u hut] at hne
      exact hl.held (h.store.others hut ▸ hu) hne
  · intro i
    rw [hcommitted, ← hsame.orders]
    exact hl.committed i
  · intro u txu hu i
    rw [hcommitted, ← hsame.orderIn]
    by_cases hut : u = t
    · subst hut
      rw [h.store.after, Option.some.injEq] at hu
      exact hu ▸ htells i
    · rw [hothers u hut]
      exact hl.staged (h.store.others hut ▸ hu) i

/-- A transaction that stages a change that its view of the order allows. -/
theorem Ledger.note {called : List OrderId} {tx' : Transaction} {id : OrderId} {change : Change}
    (hl : Ledger w j) (h : Works t called w tx w' tx') (hheld : LockKey.order id ∈ tx'.held)
    (hothers : ∀ i, i ≠ id → w.store.orderIn tx' i = w.store.orderIn tx i)
    (htells : ∀ history, Tells history (w.store.orderIn tx id) →
      Tells (history ++ [change]) (w.store.orderIn tx' id)) : Ledger w' (j.note t id change) := by
  refine hl.works h rfl ?_ ?_ ?_
  · intro u hut
    funext i
    simp [Journal.staged_note, hut]
  · intro i hne
    rw [Journal.staged_note] at hne
    by_cases hi : i = id
    · exact hi ▸ hheld
    · rw [if_neg fun h => hi h.2] at hne
      exact h.store.keeps (hl.held h.store.before hne)
  · intro i
    rw [Journal.staged_note]
    by_cases hi : i = id
    · subst hi
      rw [if_pos ⟨rfl, rfl⟩, ← List.append_assoc]
      exact htells _ (hl.staged h.store.before i)
    · rw [if_neg fun h => hi h.2, hothers i hi]
      exact hl.staged h.store.before i

/-- A transaction that changes no order. -/
theorem Ledger.unchanged {called : List OrderId} {tx' : Transaction} (hl : Ledger w j)
    (h : Works t called w tx w' tx')
    (hview : ∀ i, w.store.orderIn tx' i = w.store.orderIn tx i) : Ledger w' j := by
  refine hl.works h rfl (fun _ _ => rfl) ?_ ?_
  · intro i hne
    exact h.store.keeps (hl.held h.store.before hne)
  · intro i
    rw [hview]
    exact hl.staged h.store.before i

/-- A transaction that ends without a commit leaves no changes behind. -/
theorem Ledger.close (hl : Ledger w j) (t : TxId) :
    Ledger { w with store := w.store.close t } (j.forget t) where
  closed := by
    intro u hu i
    rw [Journal.staged_forget]
    split
    · rfl
    · next hut =>
      refine hl.closed ?_ i
      change (w.store.close t).opened.find? u = none at hu
      rwa [Store.opened_close, if_neg (Ne.symm hut)] at hu
  held := by
    intro u txu hu i hne
    obtain ⟨hut, hu⟩ := Store.opened_of_close hu
    rw [Journal.staged_forget, if_neg hut] at hne
    exact hl.held hu hne
  committed := hl.committed
  staged := by
    intro u txu hu i
    obtain ⟨hut, hu⟩ := Store.opened_of_close hu
    rw [Journal.staged_forget, if_neg hut]
    exact hl.staged hu i

/-- A commit appends what its transaction has changed. -/
theorem Ledger.commit (hl : Ledger w j) (horderly : w.store.Orderly)
    (htx : w.store.opened.find? t = some tx) :
    Ledger { w with store := (w.store.absorb tx).close t } (j.commit t) where
  closed := by
    intro u hu i
    change (j.forget t).staged u i = []
    rw [Journal.staged_forget]
    split
    · rfl
    · next hut =>
      refine hl.closed ?_ i
      change ((w.store.absorb tx).close t).opened.find? u = none at hu
      rwa [Store.opened_close, if_neg (Ne.symm hut)] at hu
  held := by
    intro u txu hu i hne
    obtain ⟨hut, hu⟩ := Store.opened_of_close hu
    change (j.forget t).staged u i ≠ [] at hne
    rw [Journal.staged_forget, if_neg hut] at hne
    exact hl.held hu hne
  committed := by
    intro i
    change Tells (j.committed i ++ j.staged t i) ((w.store.absorb tx).orders.find? i)
    rw [Store.orders_absorb (horderly.each htx)]
    exact hl.staged htx i
  staged := by
    intro u txu hu i
    obtain ⟨hut, hu⟩ := Store.opened_of_close hu
    change Tells (j.committed i ++ j.staged t i ++ (j.forget t).staged u i)
      ((w.store.absorb tx).orderIn txu i)
    rw [Journal.staged_forget, if_neg hut]
    obtain ⟨hheld, -, -, hview⟩ | ⟨hnot, -, hview⟩ := horderly.orderIn_absorb htx hu hut i
    · -- The other transaction has the order's lock, so this one has not changed it.
      have hnone : j.staged t i = [] :=
        Classical.byContradiction fun hne =>
          horderly.not_held htx hu hut hheld (hl.held htx hne)
      rw [hview, hnone, List.append_nil]
      exact hl.staged hu i
    · -- Without the lock the other one has changed nothing, and sees the order as it is now.
      have hnone : j.staged u i = [] :=
        Classical.byContradiction fun hne => hnot (hl.held hu hne)
      rw [hview, hnone, List.append_nil]
      exact hl.staged htx i

/-- **Every effect keeps the journal right.** -/
theorem Effect.ledger (h : Effect (w, j) (w', j')) (horderly : w.store.Orderly)
    (hids : w'.ids.Lasts) (hw : w.Sound) (hl : Ledger w j) : Ledger w' j' := by
  cases h with
  | elsewhere h => exact hl.mono h.sameTables fun {_} => by rw [h.opened]
  | start => exact hl.start horderly
  | stage h _ hs =>
    have hview := hw _ (Store.current_opened h.store.before)
    obtain ⟨rfl, hsame⟩ | ⟨id, change, rfl, hheld, hothers, htells⟩ := hs.tells hview hids
    · exact hl.unchanged h hsame
    · exact hl.note h hheld hothers htells
  | commit h => exact hl.commit horderly h
  | close h => exact hl.close _

theorem Reached.ledger (h : Reached w j) (hids : w.ids.Lasts) : Ledger w j := by
  obtain ⟨w₀, hempty, horderly, heffects⟩ := h.effects
  have hkeep := Effects.keep (P := fun w j => w.Sound ∧ Ledger w j) heffects
    (fun horderly hids heffect hw =>
      ⟨heffect.sound horderly hids hw.1, heffect.ledger horderly hids hw.1 hw.2⟩)
    horderly hids ⟨sound_empty hempty, ledger_empty hempty⟩
  exact hkeep.2

end runs

/-- **Dead letters and failed orders never disagree.**  In every run, however
    it goes and wherever it has got to: an order has a dead letter exactly
    when it has failed; the letter has its count and its reason, and is not
    newer than its last change; and at any time in what has been committed of
    an order, every readmission has a failure of its own before it.

    Whatever actions follow, what they lead to is such a run again. -/
theorem letters_match_failed_orders {w : World} {j : Journal} (h : Reached w j)
    (hids : w.ids.Lasts) :
    (∀ id, (w.store.deadLetters.find? id).isSome ↔
      ∃ o, w.store.orders.find? id = some o ∧ o.status = .failed) ∧
    (∀ id o d, w.store.orders.find? id = some o → w.store.deadLetters.find? id = some d →
      d.retryCount = o.retryCount ∧ some d.reason = o.failureReason ∧
        d.failedAt ≤ o.updatedAt) ∧
    (∀ id history, history <+: j.committed id →
      history.count .readmitted ≤ history.countP Change.isGivenUp ∧
        history.countP Change.isGivenUp ≤ history.count .readmitted + 1) ∧
    ∀ actions w', w.play actions = some w' → ∃ j', Reached w' j' := by
  have hagree (id : OrderId) : Agree (w.store.orders.find? id) (w.store.deadLetters.find? id) :=
    (h.sound hids _ (Store.current_empty _)).agree id
  refine ⟨?_, ?_, ?_, fun actions w' hplay => h.play hplay⟩
  · intro id
    have hid := hagree id
    cases ho : w.store.orders.find? id with
    | none =>
      rw [ho] at hid
      simp [hid.none_of_order]
    | some o =>
      rw [ho] at hid
      simp [hid.letter_of_order]
  · intro id o d ho hd
    have hid := hagree id
    rw [ho, hd] at hid
    cases hid with
    | dead hstatus hcount hreason htime => exact ⟨hcount, hreason, htime⟩
  · intro id history hprefix
    have htells := (h.ledger hids).committed id
    cases ho : w.store.orders.find? id with
    | none =>
      rw [ho] at htells
      -- Nothing was ever committed of an order that is not there.
      have hnil : j.committed id = [] := htells
      rw [hnil] at hprefix
      simp [List.prefix_nil.mp hprefix]
    | some o =>
      rw [ho] at htells
      have hlife : Life (j.committed id) o.status o.retryCount := htells
      -- What had been committed at an earlier time is a life, so it balances as well.
      obtain rfl | ⟨status, n, hearlier⟩ := hlife.of_prefix hprefix
      · simp
      · have hbalance := hearlier.balance
        split at hbalance <;> omega

/-- An order that fails, is readmitted and fails again. -/
theorem letters_match_failed_orders_failing :
    ∃ w j, Reached w j ∧ w.ids.Lasts ∧
      (w.store.deadLetters.find? ⟨.versionFour 0⟩).isSome ∧
      ∃ o, w.store.orders.find? ⟨.versionFour 0⟩ = some o ∧ o.status = .failed := by
  have hplay : (World.play { processor := .simulated .always 0 } [
      .accept .inMemory none,
      .process ⟨.versionFour 0⟩ 1,
      Action.readmit .inMemory ⟨.versionFour 0⟩,
      .process ⟨.versionFour 0⟩ 2]).map
        (fun w => ((w.store.deadLetters.find? ⟨.versionFour 0⟩).isSome, w.ids.next)) =
      some (true, 1) := by
    decide +kernel
  obtain ⟨w, hw, heq⟩ := Option.map_eq_some_iff.mp hplay
  obtain ⟨hletter, hnext⟩ := Prod.mk.inj heq
  obtain ⟨j, hj⟩ := (reached_empty rfl).play hw
  have hids : w.ids.Lasts := by
    unfold IdSupply.Lasts
    omega
  exact ⟨w, j, hj, hids, hletter, ((letters_match_failed_orders hj hids).1 _).mp hletter⟩

end OrderFlow
