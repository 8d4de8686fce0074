import OrderFlow.Proofs.Instant
import OrderFlow.Proofs.Run.Effect

/-! # Orders and dead letters in every view

    What holds of every transaction's view in every run (`SoundFor`): no
    order is in processing, an order and its dead letter agree, and an order
    that is committed as processed is seen as just that.

    Accepting an order, readmitting it and an attempt on it each change one
    order together with its letter, so one lemma about such a change
    (`SoundFor.change`) serves all three. -/

namespace OrderFlow

open World

/-! ## Agreement -/

/-- **An order and its dead letter agree**: there is a letter exactly when the
    order has failed, and then it is a snapshot of that failure. -/
inductive Agree : Option Order → Option DeadLetter → Prop where
  /-- There is no order. -/
  | unknown : Agree none none
  /-- The order is not given up on. -/
  | live {o : Order} (h : o.status ≠ .failed) : Agree (some o) none
  /-- The order is given up on. -/
  | dead {o : Order} {d : DeadLetter} (hstatus : o.status = .failed)
    (hcount : d.retryCount = o.retryCount) (hreason : some d.reason = o.failureReason)
    (htime : d.failedAt ≤ o.updatedAt) : Agree (some o) (some d)

theorem Agree.letter_of_order {o : Order} {d : Option DeadLetter} (h : Agree (some o) d) :
    d.isSome ↔ o.status = .failed := by
  cases h with
  | live h => simp [h]
  | dead hstatus => simp [hstatus]

theorem Agree.none_of_order {d : Option DeadLetter} (h : Agree none d) : d = none := by
  cases h
  rfl

/-- The letter of an attempt that was the last. -/
theorem agree_failed (o : Order) (now : Instant) (reason : String) :
    Agree (some (o.tried now (.fail reason))) (some (o.letter now reason)) :=
  .dead rfl rfl rfl (le_max_right _ now)

/-! ## Views -/

/-- **What holds of a transaction's view.** -/
structure SoundFor (s : Store) (ids : IdSupply) (tx : Transaction) : Prop where
  drawn : ∀ {id o}, s.orderIn tx id = some o → ids.HasDrawn id.uuid
  atRest : ∀ {id o}, s.orderIn tx id = some o → o.status ≠ .processing
  processed : ∀ {id o}, s.orders.find? id = some o → o.status = .processed →
    s.orderIn tx id = some o
  agree : ∀ id, Agree (s.orderIn tx id) (s.letterIn tx id)
  letterHeld : ∀ {id d}, tx.deadLetters.find? id = some d → LockKey.order id ∈ tx.held

/-- **What holds in every run**: every view is sound. -/
def World.Sound (w : World) : Prop :=
  w.Views SoundFor

section views
variable {s s' : Store} {ids ids' : IdSupply} {tx tx' : Transaction} {o : Order} {id : OrderId}

theorem SoundFor.mono (h : SoundFor s ids tx) (hs : s.SameTables s')
    (hids : ids.next ≤ ids'.next) : SoundFor s' ids' tx where
  drawn ho := (h.drawn ((hs.orderIn tx _).trans ho)).mono hids
  atRest ho := h.atRest ((hs.orderIn tx _).trans ho)
  processed := by
    intro id o ho hstatus
    rw [← hs.orders] at ho
    rw [← hs.orderIn]
    exact h.processed ho hstatus
  agree id := by
    rw [← hs.orderIn, ← hs.letterIn]
    exact h.agree id
  letterHeld hd := h.letterHeld hd

theorem soundFor_ofTables : OfTables SoundFor :=
  fun h hs hids => h.mono hs hids

/-- There is no order under an id that was not drawn. -/
theorem SoundFor.orderIn_eq_none (h : SoundFor s ids tx) (hfresh : ¬ ids.HasDrawn id.uuid) :
    s.orderIn tx id = none :=
  Option.eq_none_iff_forall_ne_some.mpr fun _ ho => hfresh (h.drawn ho)

/-- Without the order's lock no letter of it is staged. -/
theorem SoundFor.letter_unstaged (h : SoundFor s ids tx) (hk : LockKey.order id ∉ tx.held) :
    tx.deadLetters.find? id = none :=
  Option.eq_none_iff_forall_ne_some.mpr fun _ hd => hk (h.letterHeld hd)

/-- Locks and outbox rows do not matter. -/
theorem SoundFor.congr (h : SoundFor s ids tx) (horders : tx'.orders = tx.orders)
    (hletters : tx'.deadLetters = tx.deadLetters) (hheld : ∀ {k}, k ∈ tx.held → k ∈ tx'.held) :
    SoundFor s ids tx' := by
  have horder (id : OrderId) : s.orderIn tx' id = s.orderIn tx id :=
    Store.orderIn_congr (congrArg (·.find? id) horders)
  have hletter (id : OrderId) : s.letterIn tx' id = s.letterIn tx id :=
    Store.letterIn_congr (congrArg (·.find? id) hletters)
  refine ⟨?_, ?_, ?_, ?_, ?_⟩
  · intro id o ho
    exact h.drawn ((horder id).symm.trans ho)
  · intro id o ho
    exact h.atRest ((horder id).symm.trans ho)
  · intro id o ho hstatus
    rw [horder]
    exact h.processed ho hstatus
  · intro id
    rw [horder, hletter]
    exact h.agree id
  · intro id d hd
    rw [hletters] at hd
    exact hheld (h.letterHeld hd)

/-- What is not processed in a view is not committed as processed. -/
theorem SoundFor.not_processed (h : SoundFor s ids tx) (hview : ∀ o, s.orderIn tx id = some o →
    o.status ≠ .processed) {o : Order} (ho : s.orders.find? id = some o) :
    o.status ≠ .processed :=
  fun hstatus => hview o (h.processed ho hstatus) hstatus

/-- **One order and its letter change**, under the order's lock. -/
theorem SoundFor.change (h : SoundFor s ids tx) (hids : ids.next ≤ ids'.next)
    (horder : s.orderIn tx' id = some o) (hdrawn : ids'.HasDrawn id.uuid)
    (hrest : o.status ≠ .processing)
    (hview : ∀ o, s.orderIn tx id = some o → o.status ≠ .processed)
    (hagree : Agree (some o) (s.letterIn tx' id))
    (horders : ∀ i, i ≠ id → s.orderIn tx' i = s.orderIn tx i)
    (hletters : ∀ i, i ≠ id → tx'.deadLetters.find? i = tx.deadLetters.find? i)
    (hkeeps : ∀ {k}, k ∈ tx.held → k ∈ tx'.held) (hheld : LockKey.order id ∈ tx'.held) :
    SoundFor s ids' tx' where
  drawn := by
    intro i o' ho'
    by_cases hi : i = id
    · exact hi ▸ hdrawn
    · rw [horders i hi] at ho'
      exact (h.drawn ho').mono hids
  atRest := by
    intro i o' ho'
    by_cases hi : i = id
    · subst hi
      rw [horder, Option.some.injEq] at ho'
      exact ho' ▸ hrest
    · rw [horders i hi] at ho'
      exact h.atRest ho'
  processed := by
    intro i o' ho' hstatus
    by_cases hi : i = id
    · subst hi
      -- The view would show it as processed too.
      exact absurd hstatus (h.not_processed hview ho')
    · rw [horders i hi]
      exact h.processed ho' hstatus
  agree := by
    intro i
    by_cases hi : i = id
    · subst hi
      rw [horder]
      exact hagree
    · rw [horders i hi, Store.letterIn_congr (hletters i hi)]
      exact h.agree i
  letterHeld := by
    intro i d hd
    by_cases hi : i = id
    · exact hi ▸ hheld
    · rw [hletters i hi] at hd
      exact hkeeps (h.letterHeld hd)

/-- Taking out a letter that is not there. -/
theorem SoundFor.withoutLetter (h : SoundFor s ids tx) (hd : s.letterIn tx id = none) :
    SoundFor s ids (tx.withoutLetter id) where
  drawn ho := h.drawn (by simpa using ho)
  atRest ho := h.atRest (by simpa using ho)
  processed ho hstatus := by
    rw [orderIn_withoutLetter]
    exact h.processed ho hstatus
  agree := by
    intro i
    rw [orderIn_withoutLetter, letterIn_withoutLetter]
    split
    · next hi =>
      have hagree := h.agree i
      rwa [← hi, hd, hi] at hagree
    · exact h.agree i
  letterHeld := by
    intro i d hi
    rw [mem_held_withoutLetter]
    by_cases hne : i = id
    · exact Or.inr (Or.inl (by rw [hne]))
    · rw [deadLetters_withoutLetter tx hne] at hi
      exact Or.inr (Or.inr (h.letterHeld hi))

/-- A view in which an order is refused to be put back has no letter of it. -/
theorem SoundFor.no_letter (h : SoundFor s ids tx) (hgone : s.letterIn tx id = none ∨
    ∃ o, s.orderIn tx id = some o ∧ o.status ≠ .failed) : s.letterIn tx id = none := by
  rcases hgone with hd | ⟨o, ho, hstatus⟩
  · exact hd
  · have hagree := h.agree id
    rw [ho] at hagree
    cases hd : s.letterIn tx id with
    | none => rfl
    | some d =>
      rw [hd] at hagree
      exact absurd (hagree.letter_of_order.mp rfl) hstatus

/-- An attempt leaves a sound view behind. -/
theorem SoundFor.attempted (h : SoundFor s ids tx) {now : Instant} {m : Nat}
    {outcome : Outcome} (ho : s.orderIn tx o.id = some o) (hstatus : o.status = .pending)
    (ha : Attempted o now m (tx.hold (.order o.id)) outcome tx') : SoundFor s ids tx' := by
  have hdrawn := h.drawn ho
  have hview : ∀ o', s.orderIn tx o.id = some o' → o'.status ≠ .processed := by
    intro o' ho'
    rw [ho, Option.some.injEq] at ho'
    simp [← ho', hstatus]
  have hnone : s.letterIn tx o.id = none :=
    h.no_letter (Or.inr ⟨o, ho, by simp [hstatus]⟩)
  have hheld : LockKey.order o.id ∈ (tx.hold (.order o.id)).held := Transaction.mem_held_self
  have hkeeps {k : LockKey} (hk : k ∈ tx.held) : k ∈ (tx.hold (.order o.id)).held :=
    Transaction.mem_held_of_mem hk
  -- Without a letter before, only the last attempt has to bring one along.
  have hput (step : Transition) (hrest : step.target ≠ .processing)
      (hlive : step.target ≠ .failed) :
      SoundFor s ids ((tx.hold (.order o.id)).putOrder (o.tried now step)) := by
    refine h.change (o := o.tried now step) (Nat.le_refl _) (by simp) hdrawn
      (by simpa using hrest) hview ?_ ?_ ?_ hkeeps hheld
    · rw [Store.letterIn_putOrder, Store.letterIn_hold, hnone]
      exact .live (by simpa using hlive)
    · intro i hi
      simp [Ne.symm hi]
    · intro i _
      exact congrArg (·.find? i) (tx.hold_deadLetters _)
  cases ha with
  | processed => exact hput _ (by decide) (by decide)
  | retry reason _ =>
    exact hput (.scheduleRetry reason) (by simp [Transition.target]) (by simp [Transition.target])
  | failed reason _ =>
    refine h.change (o := o.tried now (.fail reason)) (Nat.le_refl _) (by simp) hdrawn
      (by simp [Transition.target]) hview ?_ ?_ ?_ ?_ ?_
    · rw [Store.letterIn_putLetter, if_pos rfl]
      exact agree_failed o now reason
    · intro i hi
      simp [Ne.symm hi]
    · intro i hi
      simp [Transaction.putLetter, Transaction.putOrder, Ne.symm hi]
    · intro k hk
      exact Transaction.mem_held_of_mem (hkeeps hk)
    · exact Transaction.mem_held_of_mem hheld

/-- A readmission leaves a sound view behind. -/
theorem SoundFor.readmitted (h : SoundFor s ids tx) {now : Instant}
    (ho : s.orderIn tx o.id = some o) (hstatus : o.status = .failed) :
    SoundFor s ids
      ((tx.withoutLetter o.id).putOrder (o.moved now (.reset PublishMode.readmitReason))) := by
  refine h.change (o := o.moved now (.reset PublishMode.readmitReason)) (Nat.le_refl _) (by simp)
    (h.drawn ho) (by simp [Transition.target]) ?_ ?_ ?_ ?_ ?_ ?_
  · intro o' ho'
    rw [ho, Option.some.injEq] at ho'
    simp [← ho', hstatus]
  · rw [Store.letterIn_putOrder, letterIn_withoutLetter, if_pos rfl]
    exact .live (by simp [Transition.target])
  · intro i hi
    simp [Ne.symm hi]
  · intro i hi
    exact deadLetters_withoutLetter tx hi
  · intro k hk
    exact mem_held_withoutLetter_of_mem hk
  · exact order_mem_held_withoutLetter

/-- A new order leaves a sound view behind, if its id is fresh. -/
theorem SoundFor.accepted (h : SoundFor s ids tx) (now : Instant)
    (hids : ids.next ≤ ids'.next) (hdrawn : ids'.HasDrawn id.uuid)
    (hfresh : ¬ ids.HasDrawn id.uuid) :
    SoundFor s ids' ((tx.hold (.order id)).putOrder (.fresh id now)) := by
  have hnone := h.orderIn_eq_none hfresh
  -- No order has the fresh id, and so there is no letter under it either.
  have hletter : s.letterIn tx id = none := by
    have hagree := h.agree id
    rw [hnone] at hagree
    exact hagree.none_of_order
  refine h.change (o := .fresh id now) hids ?_ hdrawn (by simp [Order.fresh]) ?_ ?_ ?_ ?_ ?_ ?_
  · simp [Order.fresh]
  · intro o ho
    rw [hnone] at ho
    cases ho
  · rw [Store.letterIn_putOrder, Store.letterIn_hold, hletter]
    exact .live (by simp [Order.fresh])
  · intro i hi
    simp [Order.fresh, Ne.symm hi]
  · intro i _
    exact congrArg (·.find? i) (tx.hold_deadLetters _)
  · intro k hk
    exact Transaction.mem_held_of_mem hk
  · exact Transaction.mem_held_self

/-- **Whatever a step stages** leaves a sound view behind. -/
theorem SoundFor.stages {called : List OrderId} {c : Option (OrderId × Change)}
    (h : SoundFor s ids tx) (hs : Stages s ids ids' tx called c tx') (hids : ids.next ≤ ids'.next)
    (hlasts : ids'.Lasts) (hkeeps : ∀ {k}, k ∈ tx.held → k ∈ tx'.held) : SoundFor s ids' tx' := by
  have hself : s.SameTables s := ⟨rfl, rfl, rfl⟩
  cases hs with
  | rows horders hletters => exact (h.congr horders hletters hkeeps).mono hself hids
  | refuse hgone => exact (h.withoutLetter (h.no_letter hgone)).mono hself hids
  | accept hle hlt hids' hann =>
    -- As long as ids last, one that is drawn now was not drawn before.
    have hlt' := Nat.lt_of_lt_of_le hlt hids'
    have hfresh := IdSupply.not_hasDrawn hle (Nat.lt_of_lt_of_le hlt' hlasts)
    exact (h.accepted _ hids (IdSupply.hasDrawn_versionFour hlt') hfresh).congr hann.orders
      hann.deadLetters hann.keeps
  | readmit ho hstatus hd hann =>
    exact ((h.readmitted ho hstatus).congr hann.orders hann.deadLetters hann.keeps).mono hself hids
  | attempt ho hstatus ha => exact (h.attempted ho hstatus ha).mono hself hids

end views

/-! ## Runs -/

section runs
variable {w w' : World} {j j' : Journal} {t : TxId} {tx : Transaction}

theorem sound_empty (h : w.store = {}) : w.Sound := by
  intro tx hc
  rw [h] at hc ⊢
  obtain rfl | ⟨t, ht⟩ := hc
  · exact ⟨by rintro _ _ ⟨⟩, by rintro _ _ ⟨⟩, by rintro _ _ ⟨⟩, fun _ => .unknown,
      by rintro _ _ ⟨⟩⟩
  · cases ht

/-- What a transaction that begins after a commit sees. -/
theorem SoundFor.absorb (h : SoundFor w.store w.ids tx) (htx : tx.Orderly) :
    SoundFor (w.store.absorb tx) w.ids {} where
  drawn ho := h.drawn ((Store.orderIn_absorb_empty htx _ _).symm.trans ho)
  atRest ho := h.atRest ((Store.orderIn_absorb_empty htx _ _).symm.trans ho)
  processed ho _ := ho
  agree id := by
    rw [Store.orderIn_absorb_empty htx, Store.letterIn_absorb_empty htx]
    exact h.agree id
  letterHeld hd := by cases hd

/-- Another transaction keeps what it sees of the orders that it has locked,
    and sees the others as the committing transaction saw them. -/
theorem SoundFor.absorb_other {u : TxId} {other : Transaction} (hw : w.store.Orderly)
    (htx : w.store.opened.find? t = some tx) (h : SoundFor w.store w.ids tx)
    (hu : w.store.opened.find? u = some other) (hother : SoundFor w.store w.ids other)
    (hne : u ≠ t) : SoundFor (w.store.absorb tx) w.ids other := by
  -- Letters are written under their orders' locks, so both change hands together.
  have hletter (id : OrderId) : (LockKey.order id ∈ other.held →
        (w.store.absorb tx).letterIn other id = w.store.letterIn other id) ∧
      (LockKey.order id ∉ other.held →
        (w.store.absorb tx).letterIn other id = w.store.letterIn tx id) := by
    constructor
    · intro hheld
      have hnone := h.letter_unstaged (hw.not_held htx hu hne hheld)
      have hcommitted : (w.store.absorb tx).deadLetters.find? id =
          w.store.deadLetters.find? id := Table.find?_settle_of_none hnone
      unfold Store.letterIn
      rw [hcommitted]
    · intro hnot
      rw [Store.letterIn_of_unstaged (hother.letter_unstaged hnot)]
      exact Store.deadLetters_absorb (hw.each htx) w.store id
  refine ⟨?_, ?_, ?_, ?_, hother.letterHeld⟩
  · intro id o ho
    obtain ⟨-, -, -, hview⟩ | ⟨-, -, hview⟩ := hw.orderIn_absorb htx hu hne id
    · exact hother.drawn (hview ▸ ho)
    · exact h.drawn (hview ▸ ho)
  · intro id o ho
    obtain ⟨-, -, -, hview⟩ | ⟨-, -, hview⟩ := hw.orderIn_absorb htx hu hne id
    · exact hother.atRest (hview ▸ ho)
    · exact h.atRest (hview ▸ ho)
  · intro id o ho hstatus
    obtain ⟨-, -, hcommitted, hview⟩ | ⟨-, -, hview⟩ := hw.orderIn_absorb htx hu hne id
    · rw [hview]
      exact hother.processed (hcommitted ▸ ho) hstatus
    · rw [hview, ← Store.orders_absorb (hw.each htx)]
      exact ho
  · intro id
    obtain ⟨hheld, -, -, hview⟩ | ⟨hnot, -, hview⟩ := hw.orderIn_absorb htx hu hne id
    · rw [hview, (hletter id).1 hheld]
      exact hother.agree id
    · rw [hview, (hletter id).2 hnot]
      exact h.agree id

theorem World.Sound.commit (hw : w.Sound) (horderly : w.store.Orderly)
    (htx : w.store.opened.find? t = some tx) :
    World.Sound { w with store := (w.store.absorb tx).close t } := by
  have hview := hw _ (Store.current_opened htx)
  refine Views.commit soundFor_ofTables (hview.absorb (horderly.each htx)) fun hu hut => ?_
  exact hview.absorb_other horderly htx hu (hw _ (Store.current_opened hu)) hut

/-- **Every effect keeps all views sound.** -/
theorem Effect.sound (h : Effect (w, j) (w', j')) (horderly : w.store.Orderly)
    (hids : w'.ids.Lasts) (hw : w.Sound) : w'.Sound := by
  cases h with
  | elsewhere h => exact Views.elsewhere hw soundFor_ofTables h
  | start => exact Views.start hw soundFor_ofTables
  | stage h _ hs =>
    have hview := hw _ (Store.current_opened h.store.before)
    exact Views.works hw soundFor_ofTables h (hview.stages hs h.ids hids h.store.keeps)
  | commit h => exact hw.commit horderly h
  | close h => exact Views.close hw soundFor_ofTables

theorem Continues.sound {limits : Nat → Prop} (h : Continues limits w w')
    (horderly : w.store.Orderly) (hids : w'.ids.Lasts) (hw : w.Sound) : w'.Sound := by
  obtain ⟨j', hsteps, -⟩ := h {} Journal.within_empty
  exact Effects.keep (P := fun w _ => w.Sound) (hsteps.effects horderly)
    (fun horderly hids heffect hw => heffect.sound horderly hids hw) horderly hids hw

/-- What a run comes down to. -/
theorem Reached.effects (h : Reached w j) :
    ∃ w₀ : World, w₀.store = {} ∧ w₀.store.Orderly ∧ Effects (w₀, {}) (w, j) := by
  obtain ⟨w₀, hempty, hsteps⟩ := h
  have horderly : w₀.store.Orderly := hempty ▸ Store.orderly_empty
  exact ⟨w₀, hempty, horderly, hsteps.effects horderly⟩

theorem Reached.orderly (h : Reached w j) : w.store.Orderly := by
  obtain ⟨w₀, -, horderly, heffects⟩ := h.effects
  exact Effects.orderly heffects horderly

theorem Reached.sound (h : Reached w j) (hids : w.ids.Lasts) : w.Sound := by
  obtain ⟨w₀, hempty, horderly, heffects⟩ := h.effects
  exact Effects.keep (P := fun w _ => w.Sound) heffects
    (fun horderly hids heffect hw => heffect.sound horderly hids hw) horderly hids
    (sound_empty hempty)

end runs

end OrderFlow
