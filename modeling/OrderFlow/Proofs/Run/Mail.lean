import OrderFlow.Proofs.Around
import OrderFlow.Proofs.Run.Once
import OrderFlow.Proofs.Transport
import OrderFlow.Proofs.Uuid

/-! # Only committed work is acknowledged

    What becomes of the messages that the transport accepts, whoever sends
    them and whatever they say.  Consumers alone take messages out, and a
    consumer acknowledges one only after an attempt on its order was
    answered as processed and committed.

    The steps of a run come with a record of its mail.  The transport keeps
    every accepted message until it is taken out (`Mail.Traced`), and what
    was taken out is about processed orders (`Mail.Backed`); one lemma a step
    for each, and both by induction for the run. -/

namespace OrderFlow

open World

/-! ## The record -/

/-- What has happened to messages. -/
structure Mail where
  /-- The messages that were accepted, each under its id. -/
  accepted : List (Uuid × Message) := []
  /-- What consumers have received. -/
  received : List Delivery := []
  /-- The orders on which an attempt in this transaction was answered as
      processed.  Numbers of transactions are not used twice, so nothing is
      ever forgotten here. -/
  staged : TxId → List OrderId := fun _ => []
  /-- The orders on which such an attempt was committed. -/
  done : List OrderId := []
  /-- The messages that were taken out of the queue by acknowledgements. -/
  deleted : List (Uuid × Message) := []

namespace Mail

/-- An attempt on an order was answered as processed. -/
def noteProcessed (mail : Mail) (t : TxId) (id : OrderId) : Mail :=
  { mail with staged := fun u => if u = t then mail.staged t ++ [id] else mail.staged u }

/-- Transaction `t` has committed. -/
def noteCommit (mail : Mail) (t : TxId) : Mail :=
  { mail with done := mail.done ++ mail.staged t }

/-- A message was accepted, or not. -/
def noteSend (mail : Mail) (m : Message) :
    Except OperationError (Except TransportError Uuid) → Mail
  | .ok (.ok id) => { mail with accepted := mail.accepted ++ [(id, m)] }
  | _ => mail

/-- Something was received, or not. -/
def noteReceive (mail : Mail) : Except OperationError (Option Delivery) → Mail
  | .ok (some d) => { mail with received := mail.received ++ [d] }
  | _ => mail

/-- The first message of the queue that is held by the receipt was taken out, or
    the acknowledgement has failed. -/
def noteAcknowledge (mail : Mail) (queue : List HeldMessage) (receipt : String) :
    Except OperationError Unit → Mail
  | .ok () =>
    let found := queue.find? (·.isHeldBy receipt)
    { mail with deleted := mail.deleted ++ found.toList.map HeldMessage.parcel }
  | .error _ => mail

end Mail

/-- **One step** of a run in which consumers alone receive and acknowledge. -/
inductive MailStep : (World × Journal) × Mail → (World × Journal) × Mail → Prop where
  /-- Something happens around the messages: in the store, to settings, to what
      is available. -/
  | aside {w w' : World} {j j' : Journal} {mail : Mail} (h : Step (w, j) (w', j'))
    (hmessages : w'.transport.messages = w.transport.messages)
    (hletters : w'.transport.deadLetters = w.transport.deadLetters) :
    MailStep ((w, j), mail) ((w', j'), mail)
  /-- An attempt on an order is answered as processed. -/
  | attempt {w w' : World} {j : Journal} {mail : Mail} {t : TxId} {id : OrderId} {now : Instant}
    {maxRetries : Nat} (h : processIn t id now maxRetries w = some (.ok .processed, w')) :
    MailStep ((w, j), mail)
      ((w', j.noteAttempt t id maxRetries (w.calledUntil w') (.ok .processed)),
        mail.noteProcessed t id)
  /-- A transaction commits. -/
  | commit {w w' : World} {j : Journal} {mail : Mail} {t : TxId}
    (h : Call.commit t w = some (.ok (), w')) :
    MailStep ((w, j), mail) ((w', j.commit t), mail.noteCommit t)
  /-- Somebody sends a message, of whatever kind. -/
  | send {w w' : World} {j : Journal} {mail : Mail} {m : Message}
    {r : Except OperationError (Except TransportError Uuid)}
    (h : Call.trySend m w = some (r, w')) : MailStep ((w, j), mail) ((w', j), mail.noteSend m r)
  /-- A consumer receives. -/
  | receive {w w' : World} {j : Journal} {mail : Mail} {waitMs : Nat}
    {r : Except OperationError (Option Delivery)}
    (h : Call.receive waitMs w = some (r, w')) :
    MailStep ((w, j), mail) ((w', j), mail.noteReceive r)
  /-- A consumer acknowledges what it has received, when the order that the
      message names is done. -/
  | acknowledge {w w' : World} {j : Journal} {mail : Mail} {d : Delivery} {p : Payload}
    {r : Except OperationError Unit} (hd : d ∈ mail.received)
    (hp : Payload.ofBody? d.message.body = .ok p) (hdone : p.order ∈ mail.done)
    (h : Call.acknowledge (toString d.receipt) w = some (r, w')) :
    MailStep ((w, j), mail)
      ((w', j), mail.noteAcknowledge w.transport.messages (toString d.receipt) r)

/-- Any number of steps. -/
abbrev MailSteps : (World × Journal) × Mail → (World × Journal) × Mail → Prop :=
  Relation.ReflTransGen MailStep

/-- **A run** from an empty store and an empty transport, with any settings. -/
def Mailed (w : World) (j : Journal) (mail : Mail) : Prop :=
  ∃ w₀ : World, w₀.store = {} ∧ w₀.transport.messages = [] ∧ w₀.transport.deadLetters = [] ∧
    MailSteps ((w₀, {}), {}) ((w, j), mail)

section steps
variable {w w' : World} {j j' : Journal} {mail mail' : Mail}

theorem mailed_empty (hstore : w.store = {}) (hmessages : w.transport.messages = [])
    (hletters : w.transport.deadLetters = []) : Mailed w {} {} :=
  ⟨w, hstore, hmessages, hletters, .refl⟩

theorem Mailed.steps (h : Mailed w j mail)
    (hsteps : MailSteps ((w, j), mail) ((w', j'), mail')) : Mailed w' j' mail' := by
  obtain ⟨w₀, hstore, hmessages, hletters, hbefore⟩ := h
  exact ⟨w₀, hstore, hmessages, hletters, hbefore.trans hsteps⟩

/-- Seen from the store, these are steps as any others. -/
theorem MailStep.step {c c' : World × Journal} (h : MailStep (c, mail) (c', mail')) :
    Step c c' := by
  cases h with
  | aside h _ _ => exact h
  | attempt h => exact .attempt h
  | commit h => exact .commit h
  | send h => exact .elsewhere (Call.moves_trySend _ _ _ _ h)
  | receive h => exact .elsewhere (Call.moves_receive _ _ _ _ h)
  | acknowledge _ _ _ h => exact .elsewhere (Call.moves_acknowledge _ _ _ _ h)

theorem MailSteps.steps {s s' : (World × Journal) × Mail} (h : MailSteps s s') :
    Steps s.1 s'.1 := by
  induction h with
  | refl => exact .refl
  | tail _ hstep ih => exact ih.tail hstep.step

theorem Mailed.reached (h : Mailed w j mail) : Reached w j := by
  obtain ⟨w₀, hstore, -, -, hsteps⟩ := h
  exact ⟨w₀, hstore, hsteps.steps⟩

/-- The record only grows. -/
theorem MailStep.grows (h : MailStep ((w, j), mail) ((w', j'), mail')) :
    mail.accepted ⊆ mail'.accepted ∧ mail.deleted ⊆ mail'.deleted := by
  have hself : mail.accepted ⊆ mail.accepted ∧ mail.deleted ⊆ mail.deleted :=
    ⟨List.Subset.refl _, List.Subset.refl _⟩
  cases h with
  | aside | attempt | commit => exact hself
  | @send _ _ _ _ m r h =>
    unfold Mail.noteSend
    split
    · exact ⟨List.subset_append_left _ _, List.Subset.refl _⟩
    · exact hself
  | @receive _ _ _ _ waitMs r h =>
    unfold Mail.noteReceive
    split <;> exact hself
  | @acknowledge _ _ _ _ d p r hd hp hdone h =>
    unfold Mail.noteAcknowledge
    split
    · exact ⟨List.Subset.refl _, List.subset_append_left _ _⟩
    · exact hself

theorem MailSteps.grows {s s' : (World × Journal) × Mail} (h : MailSteps s s') :
    s.2.accepted ⊆ s'.2.accepted ∧ s.2.deleted ⊆ s'.2.deleted := by
  induction h with
  | refl => exact ⟨List.Subset.refl _, List.Subset.refl _⟩
  | tail _ hstep ih =>
    have hmore := hstep.grows
    exact ⟨List.Subset.trans ih.1 hmore.1, List.Subset.trans ih.2 hmore.2⟩

end steps

/-! ## The transport's side -/

theorem HeldMessage.isHeldBy_toString {m : HeldMessage} {receipt : Uuid} :
    m.isHeldBy (toString receipt) = true ↔ m.receipt = some receipt := by
  unfold HeldMessage.isHeldBy
  cases m.receipt with
  | none => simp
  | some r =>
    simp only [beq_iff_eq, Option.some.injEq]
    exact ⟨Uuid.toString_inj, congrArg _⟩

/-- **Every accepted message can be traced**: it is in the queue, with the dead
    letters or deleted, and the receipt of a delivery leads to nothing but the
    message that was delivered. -/
structure Mail.Traced (mail : Mail) (t : Transport) (ids : IdSupply) : Prop where
  drawn : ∀ x ∈ mail.accepted, ids.HasDrawn x.1
  distinct : (mail.accepted.map Prod.fst).Nodup
  whole : mail.accepted.Perm (t.messages.map HeldMessage.parcel ++
    t.deadLetters.map HeldMessage.parcel ++ mail.deleted)
  receipts : ∀ m ∈ t.messages, ∀ receipt, m.receipt = some receipt → ids.HasDrawn receipt
  deliveries : ∀ d ∈ mail.received, ids.HasDrawn d.receipt
  held : ∀ m ∈ t.messages, ∀ d ∈ mail.received, m.receipt = some d.receipt →
    m.parcel = (d.id, d.message)

section traced
variable {w w' : World} {mail mail' : Mail} {t t' : Transport} {ids ids' : IdSupply}

/-- Neither the messages nor what is recorded of them has changed. -/
theorem Mail.Traced.mono (h : mail.Traced t ids) (haccepted : mail'.accepted = mail.accepted)
    (hreceived : mail'.received = mail.received) (hdeleted : mail'.deleted = mail.deleted)
    (hmessages : t'.messages = t.messages) (hletters : t'.deadLetters = t.deadLetters)
    (hids : ids.next ≤ ids'.next) : mail'.Traced t' ids' where
  drawn := by
    rw [haccepted]
    exact fun x hx => (h.drawn x hx).mono hids
  distinct := by
    rw [haccepted]
    exact h.distinct
  whole := by
    rw [haccepted, hdeleted, hmessages, hletters]
    exact h.whole
  receipts := by
    rw [hmessages]
    exact fun m hm receipt hr => (h.receipts m hm receipt hr).mono hids
  deliveries := by
    rw [hreceived]
    exact fun d hd => (h.deliveries d hd).mono hids
  held := by
    rw [hreceived, hmessages]
    exact h.held

/-- A message is accepted under a fresh id. -/
theorem Mail.Traced.send (h : mail.Traced t ids) (hlasts : ids.next < 2 ^ 122) (m : Message) :
    ({ mail with accepted := mail.accepted ++ [(.versionFour ids.next, m)] } : Mail).Traced
      { t with messages := t.messages ++ [{ id := .versionFour ids.next, message := m }] }
      ⟨ids.next + 1⟩ where
  drawn := by
    intro x hx
    rcases List.mem_append.mp hx with hold | hnew
    · exact (h.drawn x hold).mono (Nat.le_succ _)
    · rw [List.mem_singleton.mp hnew]
      exact IdSupply.hasDrawn_versionFour (Nat.lt_succ_self _)
  distinct := by
    rw [List.map_append, List.nodup_append]
    refine ⟨h.distinct, by simp, ?_⟩
    -- The id was not drawn before, so no other message has it.
    intro a ha b hb heq
    obtain ⟨x, hx, rfl⟩ := List.mem_map.mp ha
    simp only [List.map_cons, List.map_nil, List.mem_singleton] at hb
    have hdrawn := h.drawn x hx
    rw [heq, hb] at hdrawn
    exact IdSupply.not_hasDrawn (Nat.le_refl _) hlasts hdrawn
  whole := by
    have hrest : (mail.accepted ++ [(Uuid.versionFour ids.next, m)]).Perm _ :=
      h.whole.append_right _
    refine hrest.trans ?_
    simp only [List.map_append, List.map_cons, List.map_nil, List.append_assoc]
    refine List.Perm.append_left _ ?_
    rw [← List.append_assoc]
    exact List.perm_append_comm
  receipts := by
    intro m' hm' receipt hr
    rcases List.mem_append.mp hm' with hold | hnew
    · exact (h.receipts m' hold receipt hr).mono (Nat.le_succ _)
    · rw [List.mem_singleton.mp hnew] at hr
      cases hr
  deliveries := fun d hd => (h.deliveries d hd).mono (Nat.le_succ _)
  held := by
    intro m' hm' d hd hr
    rcases List.mem_append.mp hm' with hold | hnew
    · exact h.held m' hold d hd hr
    · rw [List.mem_singleton.mp hnew] at hr
      cases hr

/-- A receive under a fresh receipt. -/
theorem Mail.Traced.receive (h : mail.Traced t ids) (hlasts : ids.next < 2 ^ 122)
    {found : Option Delivery} (hr : t.Receives (.versionFour ids.next) found t') :
    (mail.noteReceive (.ok found)).Traced t' ⟨ids.next + 1⟩ := by
  have hfresh : ¬ ids.HasDrawn (.versionFour ids.next) :=
    IdSupply.not_hasDrawn (Nat.le_refl _) hlasts
  have hkept : (mail.noteReceive (.ok found)).accepted = mail.accepted ∧
      (mail.noteReceive (.ok found)).deleted = mail.deleted := by
    cases found <;> exact ⟨rfl, rfl⟩
  have hreceived : ∀ d ∈ (mail.noteReceive (.ok found)).received,
      d ∈ mail.received ∨ found = some d := by
    intro d hd
    cases found with
    | none => exact Or.inl hd
    | some d' =>
      rcases List.mem_append.mp hd with hold | hnew
      · exact Or.inl hold
      · exact Or.inr (by rw [List.mem_singleton.mp hnew])
  have hreceipt {d : Delivery} (hd : found = some d) : d.receipt = .versionFour ids.next := by
    cases hr with
    | nothing => cases hd
    | delivery =>
      cases hd
      rfl
  refine ⟨?_, ?_, ?_, ?_, ?_, ?_⟩
  · rw [hkept.1]
    exact fun x hx => (h.drawn x hx).mono (Nat.le_succ _)
  · rw [hkept.1]
    exact h.distinct
  · rw [hkept.1, hkept.2]
    exact h.whole.trans (hr.parcels.append_right _)
  · intro m hm receipt hm'
    obtain hold | ⟨m₀, hm₀, -, hnew, -⟩ := hr.origin hm
    · exact (h.receipts m hold receipt hm').mono (Nat.le_succ _)
    · rw [hm', Option.some.injEq] at hnew
      exact hnew ▸ IdSupply.hasDrawn_versionFour (Nat.lt_succ_self _)
  · intro d hd
    obtain hold | hnew := hreceived d hd
    · exact (h.deliveries d hold).mono (Nat.le_succ _)
    · rw [hreceipt hnew]
      exact IdSupply.hasDrawn_versionFour (Nat.lt_succ_self _)
  · -- Old messages answer to old receipts, and the one that is delivered to the new one.
    intro m hm d hd hm'
    obtain hold | ⟨m₀, hm₀, hparcel, hnew, -, -, hfound⟩ := hr.origin hm
    · obtain hd | hd := hreceived d hd
      · exact h.held m hold d hd hm'
      · rw [hreceipt hd] at hm'
        exact absurd (h.receipts m hold _ hm') hfresh
    · rw [hm', Option.some.injEq] at hnew
      obtain hd | hd := hreceived d hd
      · exact absurd (hnew ▸ h.deliveries d hd) hfresh
      · rw [hd, Option.some.injEq] at hfound
        rw [hparcel, hfound]
        rfl

/-- A message is taken out of the queue. -/
theorem Mail.Traced.acknowledge (h : mail.Traced t ids) {m : HeldMessage}
    {kept : List HeldMessage} (hmessages : t.messages.Perm (m :: kept)) :
    ({ mail with deleted := mail.deleted ++ [m.parcel] } : Mail).Traced
      { t with messages := kept } ids where
  drawn := h.drawn
  distinct := h.distinct
  whole := by
    have hparcels := hmessages.map HeldMessage.parcel
    rw [List.map_cons] at hparcels
    refine h.whole.trans (((hparcels.append_right _).append_right _).trans ?_)
    rw [List.cons_append, List.cons_append, ← List.append_assoc]
    exact (List.perm_append_singleton _ _).symm
  receipts m' hm' := h.receipts m' (hmessages.mem_iff.mpr (List.mem_cons_of_mem _ hm'))
  deliveries := h.deliveries
  held m' hm' := h.held m' (hmessages.mem_iff.mpr (List.mem_cons_of_mem _ hm'))

end traced

section transport
variable {w w' : World} {j j' : Journal} {mail mail' : Mail}

/-- **One step keeps all messages traced.** -/
theorem MailStep.traced (h : MailStep ((w, j), mail) ((w', j'), mail'))
    (horderly : w.store.Orderly) (hids : w'.ids.Lasts) (ht : mail.Traced w.transport w.ids) :
    mail'.Traced w'.transport w'.ids := by
  have hle : w.ids.next ≤ w'.ids.next := Effects.ids_le (h.step.effects horderly)
  have hunchanged {v : World} (hv : Aside w v) : mail.Traced v.transport v.ids := by
    obtain ⟨b, hb⟩ := hv.transport
    exact ht.mono rfl rfl rfl (by rw [hb]) (by rw [hb]) hv.ids
  cases h with
  | aside h hmessages hletters => exact ht.mono rfl rfl rfl hmessages hletters hle
  | @attempt _ _ _ _ t id now m h =>
    have haround := around_processIn id w _ w' h
    exact ht.mono rfl rfl rfl haround.messages haround.deadLetters hle
  | @commit _ _ _ _ t h =>
    have haround := Call.around_commit w _ w' h
    exact ht.mono rfl rfl rfl haround.messages haround.deadLetters hle
  | @send _ _ _ _ m r h =>
    obtain ⟨rfl, -, rfl⟩ | ⟨rfl, -, rfl⟩ := Call.trySend_eq_some h
    · have hlasts : w.ids.next < 2 ^ 122 := hids
      obtain ⟨b, hb⟩ := (aside_sending w).transport
      have hsent := ht.send hlasts m
      refine hsent.mono rfl rfl rfl ?_ ?_ (Nat.le_refl _)
      · show w.sending.transport.messages ++ _ = _
        rw [hb]
      · show w.sending.transport.deadLetters = _
        rw [hb]
    · -- Refused: an id was drawn, and nothing else has happened.
      exact hunchanged (aside_sending w)
  | @receive _ _ _ _ waitMs r h =>
    obtain ⟨hnext, -, ⟨-, rfl, htransport⟩ | ⟨found, rfl, hreceives⟩⟩ := Call.receive_eq_some h
    · -- The receipt was drawn, and then the transport has refused.
      have hnothing := hunchanged (aside_nextDisturbance w)
      rw [← htransport, nextDisturbance_ids] at hnothing
      exact hnothing.mono rfl rfl rfl rfl rfl (by omega)
    · have hnow := hunchanged (aside_nextDisturbance w)
      rw [nextDisturbance_ids] at hnow
      have hlasts : w.ids.next < 2 ^ 122 := by
        unfold IdSupply.Lasts at hids
        omega
      exact (hnow.receive hlasts hreceives).mono rfl rfl rfl rfl rfl (by simp [hnext])
  | @acknowledge _ _ _ _ d p r hd hp hdone h =>
    have hnow := hunchanged (aside_nextDisturbance w)
    obtain ⟨b, hb⟩ := (aside_nextDisturbance w).transport
    obtain ⟨hw', hend⟩ := Call.acknowledge_eq_some h
    have hids' : w.nextDisturbance.ids.next ≤ w'.ids.next := Nat.le_of_eq (by rw [hw'])
    obtain ⟨rfl, m, kept, hfirst, hmessages, htransport⟩ | ⟨⟨cause, rfl⟩, htransport⟩ := hend
    · -- What the record takes for deleted is what the transport has taken out.
      rw [hb] at hfirst
      have hmail : mail.noteAcknowledge w.transport.messages (toString d.receipt) (.ok ()) =
          { mail with deleted := mail.deleted ++ [m.parcel] } := by
        unfold Mail.noteAcknowledge
        dsimp only at hfirst ⊢
        rw [hfirst]
        rfl
      rw [hmail, htransport]
      exact (hnow.acknowledge hmessages).mono rfl rfl rfl rfl rfl hids'
    · rw [htransport]
      exact hnow.mono rfl rfl rfl rfl rfl hids'

end transport

/-! ## The store's side -/

/-- **What was deleted is backed by the store**: an order that is noted as done is
    committed as processed, and one that is noted for an open transaction will
    be if that commits. -/
structure Mail.Backed (mail : Mail) (w : World) : Prop where
  staged : ∀ t id, id ∈ mail.staged t → w.ShowsProcessed t id
  done : ∀ id ∈ mail.done, ∃ o, w.store.orders.find? id = some o ∧ o.status = .processed
  deleted : ∀ x ∈ mail.deleted, ∃ p, Payload.ofBody? x.2.body = .ok p ∧ p.order ∈ mail.done

section backed
variable {w w' : World} {j j' : Journal} {mail mail' : Mail} {t : TxId} {id : OrderId}

/-- Nothing that happens takes the backing away. -/
theorem Mail.Backed.steps (h : mail.Backed w) (hreached : Reached w j)
    (hsteps : Steps (w, j) (w', j')) (hids : w'.ids.Lasts) : mail.Backed w' where
  staged t id hid := hreached.shows_processed hsteps hids (h.staged t id hid)
  done id hid := by
    obtain ⟨o, ho, hstatus⟩ := h.done id hid
    exact ⟨o, (hreached.processed_stays hsteps hids ho hstatus).1, hstatus⟩
  deleted := h.deleted

/-- An attempt that is answered as processed: the transaction sees the order so. -/
theorem processIn_shows_processed {now : Instant} {m : Nat} (hw : w.store.Orderly)
    (h : processIn t id now m w = some (.ok .processed, w')) : w'.ShowsProcessed t id := by
  obtain ⟨tx, ⟨-, hr, -⟩ | ⟨o, ho, -, hr, hworks⟩ |
    ⟨o, outcome, tx', -, rfl, -, hr, hattempted, hworks⟩⟩ := processIn_works hw h
  · cases hr
  all_goals
    have hbegun : t < w'.store.nextTx := by
      rw [hworks.store.nextTx]
      exact hw.below hworks.store.before
    refine ⟨hbegun, fun {tx₁} htx₁ => ?_⟩
    rw [hworks.store.after, Option.some.injEq] at htx₁
    subst htx₁
    rw [← hworks.store.sameTables.orderIn]
  · -- Passed over, because it is processed already.
    have hstatus : o.status = .processed := by
      unfold Order.passedOver at hr
      split at hr
      · assumption
      · cases hr
    exact ⟨o, by simpa using ho, hstatus⟩
  · cases hr
    cases hattempted with
    | processed => exact ⟨o.tried now .complete, by simp, by simp [Transition.target]⟩

/-- What a transaction sees as processed is committed so with it. -/
theorem World.ShowsProcessed.commit (h : w.ShowsProcessed t id) (hw : w.store.Orderly)
    (hcommit : Call.commit t w = some (.ok (), w')) :
    ∃ o, w'.store.orders.find? id = some o ∧ o.status = .processed := by
  obtain ⟨w₁, tx, helse, htx, ⟨-, -, rfl⟩ | ⟨hr, -⟩⟩ := Call.commit_eq_some hcommit
  · obtain ⟨o, ho, hstatus⟩ := h.shown (helse.opened ▸ htx)
    refine ⟨o, ?_, hstatus⟩
    show (w₁.store.absorb tx).orders.find? id = some o
    rw [Store.orders_absorb ((helse.orderly hw).each htx), ← helse.sameTables.orderIn]
    exact ho
  · cases hr

/-- **One step keeps the backing.** -/
theorem MailStep.backed (h : MailStep ((w, j), mail) ((w', j'), mail'))
    (hreached : Reached w j) (hids : w'.ids.Lasts) (ht : mail.Traced w.transport w.ids)
    (hb : mail.Backed w) : mail'.Backed w' := by
  have hkept : mail.Backed w' := hb.steps hreached (.single h.step) hids
  cases h with
  | aside => exact hkept
  | @attempt _ _ _ _ t id now m h =>
    refine ⟨fun u i hi => ?_, hkept.done, hkept.deleted⟩
    unfold Mail.noteProcessed at hi
    dsimp only at hi
    split at hi
    · next hu =>
      rcases List.mem_append.mp hi with hold | hnew
      · exact hkept.staged u i (hu ▸ hold)
      · rw [hu, List.mem_singleton.mp hnew]
        exact processIn_shows_processed hreached.orderly h
    · exact hkept.staged u i hi
  | @commit _ _ _ _ t h =>
    refine ⟨hkept.staged, fun i hi => ?_, fun x hx => ?_⟩
    · -- What was noted for the transaction is committed with it.
      rcases List.mem_append.mp hi with hold | hnew
      · exact hkept.done i hold
      · exact (hb.staged t i hnew).commit hreached.orderly h
    · obtain ⟨p, hp, hdone⟩ := hkept.deleted x hx
      exact ⟨p, hp, List.mem_append_left _ hdone⟩
  | @send _ _ _ _ m r h =>
    unfold Mail.noteSend
    split <;> exact ⟨hkept.staged, hkept.done, hkept.deleted⟩
  | @receive _ _ _ _ waitMs r h =>
    unfold Mail.noteReceive
    split <;> exact ⟨hkept.staged, hkept.done, hkept.deleted⟩
  | @acknowledge _ _ _ _ d p r hd hp hdone h =>
    unfold Mail.noteAcknowledge
    split
    · refine ⟨hkept.staged, hkept.done, fun x hx => ?_⟩
      rcases List.mem_append.mp hx with hold | hnew
      · exact hkept.deleted x hold
      · -- The receipt leads to the message that was delivered, and that names a done order.
        obtain ⟨m, hm, rfl⟩ := List.mem_map.mp hnew
        have hfound := Option.mem_toList.mp hm
        have hheld := HeldMessage.isHeldBy_toString.mp
          (List.find?_some (p := fun m : HeldMessage => m.isHeldBy (toString d.receipt)) hfound)
        have hparcel := ht.held m (List.mem_of_find?_eq_some hfound) d hd hheld
        exact ⟨p, by rw [hparcel]; exact hp, hdone⟩
    · exact hkept

/-- **Both sides along a run.** -/
theorem Mailed.kept (h : Mailed w j mail) (hids : w.ids.Lasts) :
    mail.Traced w.transport w.ids ∧ mail.Backed w := by
  obtain ⟨w₀, hstore, hmessages, hletters, hsteps⟩ := h
  suffices hall : ∀ s : (World × Journal) × Mail, MailSteps ((w₀, {}), {}) s →
      s.1.1.ids.Lasts → s.2.Traced s.1.1.transport s.1.1.ids ∧ s.2.Backed s.1.1 from
    hall _ hsteps hids
  intro s hs
  induction hs with
  | refl =>
    intro _
    refine ⟨⟨by simp, by simp, ?_, ?_, by simp, by simp⟩, ⟨?_, by simp, by simp⟩⟩
    · simp [hmessages, hletters]
    · simp [hmessages]
    · intro t id hid
      cases hid
  | @tail s s' hbefore hstep ih =>
    intro hlasts
    have hreached : Reached s.1.1 s.1.2 := ⟨w₀, hstore, MailSteps.steps hbefore⟩
    -- Ids only go up, so those that last at the end have lasted all along.
    have hlasts₀ : s.1.1.ids.Lasts :=
      hlasts.mono (Effects.ids_le (hstep.step.effects hreached.orderly))
    obtain ⟨ht, hb⟩ := ih hlasts₀
    exact ⟨hstep.traced hreached.orderly hlasts ht, hstep.backed hreached hlasts ht hb⟩

end backed

/-! ## Actions are such steps -/

/-- If others act around the pipeline, they leave the messages alone. -/
def Action.LeavesMessages (a : Action) (w : World) : Prop :=
  ∀ e, a = .others e → e.transport.messages = w.transport.messages ∧
    e.transport.deadLetters = w.transport.deadLetters

/-- Whatever is recorded so far, steps lead from one world to the other. -/
def Posts (w w' : World) : Prop :=
  ∀ j mail, ∃ j' mail', MailSteps ((w, j), mail) ((w', j'), mail')

namespace Posts

open Attempt

variable {w w' : World}

theorem chains : Chains Posts where
  refl w j mail := ⟨j, mail, .refl⟩
  trans := by
    intro w₁ w₂ w₃ h₁ h₂ j mail
    obtain ⟨j', mail', hs⟩ := h₁ j mail
    obtain ⟨j'', mail'', hs'⟩ := h₂ j' mail'
    exact ⟨j'', mail'', hs.trans hs'⟩

theorem of_around (haround : Around w w') (h : ∀ j, ∃ j', Step (w, j) (w', j')) :
    Posts w w' := by
  intro j mail
  obtain ⟨j', hstep⟩ := h j
  exact ⟨j', mail, .single (.aside hstep haround.messages haround.deadLetters)⟩

theorem elsewhere (h : Elsewhere w w')
    (hmessages : w'.transport.messages = w.transport.messages)
    (hletters : w'.transport.deadLetters = w.transport.deadLetters) : Posts w w' :=
  fun j mail => ⟨j, mail, .single (.aside (.elsewhere h) hmessages hletters)⟩

theorem send (m : Message) : Moves Posts (Call.trySend m) :=
  fun _ _ _ h j _ => ⟨j, _, .single (.send h)⟩

theorem respects : Respects Posts fun _ => True where
  chains := chains
  aside h := by
    obtain ⟨b, hb⟩ := h.transport
    exact elsewhere h.toElsewhere (by rw [hb]) (by rw [hb])
  start w r w' h := of_around (Call.around_start w r w' h) fun j => ⟨j, .start h⟩
  attempt t id now _ _ w r w' h :=
    of_around (around_processIn id w r w' h) fun _ => ⟨_, .attempt h⟩
  endStaleLeases t limit w r w' h :=
    of_around (Call.around_inStore (Store.moves_endStaleLeases limit) w r w' h) fun j =>
      ⟨j, .rows (.endStaleLeases limit) h⟩
  claimDue t limit now w r w' h :=
    of_around (Call.around_inStore (Store.moves_claimDue limit now) w r w' h) fun j =>
      ⟨j, .rows (.claimDue limit now) h⟩
  leaseRow t id now name w r w' h :=
    of_around (Call.around_inStore (Store.moves_changeRow id _) w r w' h) fun j =>
      ⟨j, .rows (.changeRow id (fun e => e.lease now name) fun _ => rfl) h⟩
  commit t w r w' h := of_around (Call.around_commit w r w' h) fun _ => ⟨_, .commit h⟩
  abandon t w r w' h :=
    of_around (Call.around_inStore Store.moves_abandon w r w' h) fun _ => ⟨_, .abandon h⟩

theorem respectsRows : RespectsRows Posts :=
  fun _ id f hf w r w' h =>
    of_around (Call.around_inStore (Store.moves_changeRow id f) w r w' h) fun j =>
      ⟨j, .rows (.changeRow id f hf) h⟩

theorem stageAccept (mode : PublishMode) (t : TxId) (correlation : Option String)
    (now : Instant) : Moves Posts (mode.stageAccept t correlation now) :=
  fun w r w' h =>
    of_around (PublishMode.around_stageAccept w r w' h) fun _ => ⟨_, .accept h⟩

theorem stageReadmit (mode : PublishMode) (t : TxId) (id : OrderId) (now : Instant) :
    Moves Posts <| mode.stageReadmit t id now := by
  intro w r w' h
  obtain ⟨tx, -, ⟨-, -, rfl⟩ | ⟨-, hfound⟩⟩ := PublishMode.stageReadmit_eq_some h
  · exact chains.refl _
  · exact of_around (PublishMode.around_stageReadmit id w r w' h) fun _ => ⟨_, Step.readmit hfound⟩

/-! ## Consumers -/

section consumers
variable {j : Journal} {mail : Mail} {id : OrderId}

/-- **An attempt in a transaction of its own.**  If it is answered as processed,
    the order is noted as done. -/
theorem process {m : Nat} {r : Except OperationError Outcome}
    (h : process id m w = some (r, w')) (j : Journal) (mail : Mail) :
    ∃ j' mail', MailSteps ((w, j), mail) ((w', j'), mail') ∧ mail'.received = mail.received ∧
      (r = .ok .processed → id ∈ mail'.done) := by
  have aside {v v' : World} {k k' : Journal} {mail : Mail} (hstep : Step (v, k) (v', k'))
      (haround : Around v v') : MailStep ((v, k), mail) ((v', k'), mail) :=
    .aside hstep haround.messages haround.deadLetters
  have hstarted {rs : Except OperationError TxId} {v : World}
      (hstart : Call.start w = some (rs, v)) : MailStep ((w, j), mail) ((v, j), mail) :=
    aside (.start hstart) (Call.around_start w _ v hstart)
  obtain ⟨e, hstart, rfl⟩ | ⟨t, w₁, hstart, hrest⟩ := Call.transact_eq_some h
  · refine ⟨j, mail, .single (hstarted hstart), rfl, ?_⟩
    intro hr
    cases hr
  obtain ⟨outcome, w₂, r', hrun, hcommit, rfl⟩ | ⟨e, w₂, hrun, habandon, rfl⟩ := hrest
  all_goals
    have hattempt : processIn t id w₁.now m w₁ = some (_, w₂) := hrun
    have haround := around_processIn id w₁ _ w₂ hattempt
  · have haround' := Call.around_commit w₂ _ w' hcommit
    have hunnoted : MailSteps ((w, j), mail) ((w', (j.noteAttempt t id m (w₁.calledUntil w₂)
        (.ok outcome)).finish t r'), mail) :=
      ((Relation.ReflTransGen.single (hstarted hstart)).tail
        (aside (.attempt hattempt) haround)).tail (aside (.commit hcommit) haround')
    cases r' with
    | error cause =>
      -- The commit has failed, so whatever was answered is not noted.
      refine ⟨_, mail, hunnoted, rfl, ?_⟩
      intro hr
      cases hr
    | ok =>
      by_cases hprocessed : outcome = .processed
      · subst hprocessed
        refine ⟨_, (mail.noteProcessed t id).noteCommit t,
          ((Relation.ReflTransGen.single (hstarted hstart)).tail (.attempt hattempt)).tail
            (.commit hcommit), rfl, fun _ => ?_⟩
        show id ∈ mail.done ++ (mail.noteProcessed t id).staged t
        simp [Mail.noteProcessed]
      · refine ⟨_, mail, hunnoted, rfl, fun hr => absurd ?_ hprocessed⟩
        cases hr
        rfl
  · have haround' := Call.around_inStore Store.moves_abandon w₂ _ w' habandon
    refine ⟨_, mail, ((Relation.ReflTransGen.single (hstarted hstart)).tail
      (aside (.attempt hattempt) haround)).tail (aside (.abandon habandon) haround'), rfl, ?_⟩
    intro hr
    cases hr

/-- **A poll acknowledges only what it has received**, and only when the attempt
    was answered as processed. -/
theorem consume (c : MessageConsumer) : Moves Posts c.poll := by
  intro w r w' h j mail
  cases MessageConsumer.poll_polls h with
  | refused hreceive => exact ⟨_, _, .single (.receive hreceive)⟩
  | idle hreceive => exact ⟨_, _, .single (.receive hreceive)⟩
  | malformed hreceive hp => exact ⟨_, _, .single (.receive hreceive)⟩
  | @attempted d p r₁ w₁ _ hreceive hp hprocess hr =>
    obtain ⟨j', mail', hsteps, -⟩ := Posts.process hprocess j (mail.noteReceive (.ok (some d)))
    exact ⟨_, _, (Relation.ReflTransGen.single (.receive hreceive)).trans hsteps⟩
  | @acknowledged d p r₁ w₁ w₂ _ hreceive hp hprocess hack =>
    obtain ⟨j', mail', hsteps, hreceived, hdone⟩ :=
      Posts.process hprocess j (mail.noteReceive (.ok (some d)))
    -- The attempt receives nothing, so the delivery is on record still.
    have hd : d ∈ mail'.received := by
      rw [hreceived]
      simp [Mail.noteReceive]
    have hbefore : MailSteps ((w, j), mail) ((w₂, j'), mail') :=
      (Relation.ReflTransGen.single (.receive hreceive)).trans hsteps
    exact ⟨_, _, hbefore.tail (.acknowledge hd hp (hdone rfl) hack)⟩

end consumers

/-- **Every action is a sequence of such steps**, as long as others leave the
    messages alone. -/
theorem act {a : Action} {r : Except OperationError Unit} (hothers : a.LeavesMessages w)
    (h : a.call w = some (r, w')) : Posts w w' := by
  refine Action.moves respects (fun mode _ => stageAccept mode) (fun mode _ => stageReadmit mode)
    (fun _ hp now => respects.pollOutbox respectsRows now hp)
    (fun _ r now => respects.relay respectsRows now send r) send
    (fun c _ => consume c) a.within_any (fun _ _ => trivial) ?_ h
  intro e he
  obtain ⟨hmessages, hletters⟩ := hothers e he
  exact elsewhere ⟨⟨_, rfl⟩, rfl, Nat.le_refl _⟩ hmessages hletters

end Posts

/-! ## The property -/

/-- **Consumers acknowledge only work that is committed.**  At every moment of
    every run from an empty store and an empty transport, whoever sends messages
    and whatever they say, however the steps are interleaved, and whatever the
    processor answers, the settings are or the outages do:

    * every accepted message has an id of its own, and it is in exactly one
      place: in the queue, with the dead letters, or deleted;
    * a deleted message names an order that is committed as processed, and from
      then on the order stays as it is and the message stays deleted;
    * a message that is no announcement, or that names no order, is not deleted.

    Actions of a pipeline are such steps, as long as the others that act around
    it leave the messages alone. -/
theorem acknowledged_only_if_processed {w : World} {j : Journal} {mail : Mail}
    (h : Mailed w j mail) (hids : w.ids.Lasts) :
    (mail.accepted.map Prod.fst).Nodup ∧
    mail.accepted.Perm (w.transport.messages.map HeldMessage.parcel ++
      w.transport.deadLetters.map HeldMessage.parcel ++ mail.deleted) ∧
    (∀ x ∈ mail.deleted, ∃ p o, Payload.ofBody? x.2.body = .ok p ∧
      w.store.orders.find? p.order = some o ∧ o.status = .processed ∧
      ∀ w' j' mail', MailSteps ((w, j), mail) ((w', j'), mail') → w'.ids.Lasts →
        x ∈ mail'.deleted ∧ w'.store.orders.find? p.order = some o) ∧
    (∀ x ∈ mail.accepted,
      (∀ p, Payload.ofBody? x.2.body = .ok p → w.store.orders.find? p.order = none) →
      x ∉ mail.deleted) ∧
    ∀ (a : Action) r w', a.LeavesMessages w → a.call w = some (r, w') →
      ∃ j' mail', MailSteps ((w, j), mail) ((w', j'), mail') := by
  obtain ⟨htraced, hbacked⟩ := h.kept hids
  have hdeleted : ∀ x ∈ mail.deleted, ∃ p o, Payload.ofBody? x.2.body = .ok p ∧
      w.store.orders.find? p.order = some o ∧ o.status = .processed := by
    intro x hx
    obtain ⟨p, hp, hdone⟩ := hbacked.deleted x hx
    obtain ⟨o, ho, hstatus⟩ := hbacked.done p.order hdone
    exact ⟨p, o, hp, ho, hstatus⟩
  refine ⟨htraced.distinct, htraced.whole, ?_, ?_, fun a r w' hothers hcall =>
    Posts.act hothers hcall j mail⟩
  · intro x hx
    obtain ⟨p, o, hp, ho, hstatus⟩ := hdeleted x hx
    refine ⟨p, o, hp, ho, hstatus, fun w' j' mail' hsteps hids' => ?_⟩
    have hstays := h.reached.processed_stays hsteps.steps hids' ho hstatus
    exact ⟨hsteps.grows.2 hx, hstays.1⟩
  · intro x _ hunknown hx
    obtain ⟨p, o, hp, ho, -⟩ := hdeleted x hx
    rw [hunknown p hp] at ho
    cases ho

/-- An order is accepted and announced, and its message is consumed. -/
theorem acknowledged_only_if_processed_consumed :
    ∃ w j mail x p o, Mailed w j mail ∧ w.ids.Lasts ∧ x ∈ mail.deleted ∧
      Payload.ofBody? x.2.body = .ok p ∧ w.store.orders.find? p.order = some o ∧
      o.status = .processed := by
  have hplay : (World.play {} [.accept .transport none, .consume {}]).map
      (fun w => (w.transport.messages.length, w.transport.deadLetters.length, w.ids.next)) =
      some (0, 0, 3) := by
    decide +kernel
  have hsent : ((Action.accept .transport none).call {}).map
      (fun x => (x.2.transport.messages.length, x.2.ids.next)) = some (1, 2) := by
    decide +kernel
  obtain ⟨w, hw, heq⟩ := Option.map_eq_some_iff.mp hplay
  obtain ⟨r₁, w₁, haccept, hrest⟩ := World.play_cons hw
  obtain ⟨r₂, w₂, hconsume, hdone⟩ := World.play_cons hrest
  cases hdone
  rw [haccept] at hsent
  simp only [Option.map_some, Option.some.injEq, Prod.mk.injEq] at heq hsent
  have hids₁ : w₁.ids.Lasts := by
    unfold IdSupply.Lasts
    omega
  have hids : w.ids.Lasts := by
    unfold IdSupply.Lasts
    omega
  -- The message is in the queue after the first action, and nowhere in the transport at the end.
  obtain ⟨j₁, mail₁, hsteps₁⟩ := Posts.act (by rintro e ⟨⟩) haccept {} {}
  have hmailed₁ : Mailed w₁ j₁ mail₁ := (mailed_empty rfl rfl rfl).steps hsteps₁
  obtain ⟨j, mail, hsteps⟩ := Posts.act (by rintro e ⟨⟩) hconsume j₁ mail₁
  have hmailed : Mailed w j mail := hmailed₁.steps hsteps
  obtain ⟨-, hwhole₁, -⟩ := acknowledged_only_if_processed hmailed₁ hids₁
  obtain ⟨-, hwhole, hprocessed, -⟩ := acknowledged_only_if_processed hmailed hids
  obtain ⟨m, hm⟩ := List.length_pos_iff_exists_mem.mp (Nat.lt_of_lt_of_eq Nat.one_pos hsent.1.symm)
  have hqueued : m.parcel ∈ mail₁.accepted :=
    hwhole₁.mem_iff.mpr (by simp [List.mem_map_of_mem hm])
  have hx : m.parcel ∈ mail.deleted := by
    have haccepted := hwhole.mem_iff.mp (hsteps.grows.1 hqueued)
    rw [List.length_eq_zero_iff.mp heq.1, List.length_eq_zero_iff.mp heq.2.1] at haccepted
    simpa using haccepted
  obtain ⟨p, o, hp, ho, hstatus, -⟩ := hprocessed _ hx
  exact ⟨w, j, mail, m.parcel, p, o, hmailed, hids, hx, hp, ho, hstatus⟩

end OrderFlow
