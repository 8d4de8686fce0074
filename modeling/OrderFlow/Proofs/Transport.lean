import OrderFlow.Poll.Consuming
import OrderFlow.Proofs.Call

/-! # What the transport does with messages

    A message that was accepted stays with the transport until it is
    acknowledged: a receive delivers it once more, or puts it with the dead
    letters when it has been delivered as often as allowed.

    In most of what follows it is of no account in which order the messages
    stand, nor when a receive ends, so `Receives` compares queues up to
    permutation; `ReceivesAt` says the rest.  One lemma a call; the later
    proofs do not look into the queue again. -/

namespace OrderFlow

open Attempt

namespace HeldMessage

/-- What the sender knows of a message: its id and what was sent. -/
def parcel (m : HeldMessage) : Uuid × Message :=
  (m.id, m.message)

@[simp] theorem parcel_deliver (m : HeldMessage) (receipt : Uuid) (hiddenUntil : Nat) :
    (m.deliver receipt hiddenUntil).parcel = m.parcel := rfl

end HeldMessage

namespace Transport

/-- **What a receive does**: messages that have been delivered too often go to
    the dead letters, and it delivers nothing or one of the others. -/
inductive Receives (t : Transport) (receipt : Uuid) : Option Delivery → Transport → Prop where
  /-- There is nothing to deliver. -/
  | nothing {kept spent : List HeldMessage}
    (hspent : ∀ m ∈ spent, t.maxReceives ≤ m.receiveCount)
    (hmessages : t.messages.Perm (kept ++ spent)) :
    Receives t receipt none { t with messages := kept, deadLetters := t.deadLetters ++ spent }
  /-- A message is delivered, which stays hidden from now on. -/
  | delivery {m : HeldMessage} {hiddenUntil : Nat} {rest kept spent : List HeldMessage}
    (hcount : m.receiveCount < t.maxReceives)
    (hspent : ∀ m ∈ spent, t.maxReceives ≤ m.receiveCount)
    (hmessages : t.messages.Perm (m :: (rest ++ spent)))
    (hkept : kept.Perm (m.deliver receipt hiddenUntil :: rest)) :
    Receives t receipt (some ⟨m.id, receipt, m.message, m.receiveCount + 1⟩)
      { t with messages := kept, deadLetters := t.deadLetters ++ spent }

/-- **What a receive does** that ends at `moment`.  It keeps the order of the
    messages, delivers only what is visible then, and hides it until the
    visibility timeout is over. -/
inductive ReceivesAt (t : Transport) (receipt : Uuid) (moment : Nat) :
    Option Delivery → Transport → Prop where
  /-- There is nothing to deliver. -/
  | nothing {kept spent : List HeldMessage}
    (hspent : ∀ m ∈ spent, t.maxReceives ≤ m.receiveCount)
    (hmessages : t.messages.Perm (kept ++ spent))
    (horder : (kept.map (·.id)).Sublist (t.messages.map (·.id))) :
    ReceivesAt t receipt moment none
      { t with messages := kept, deadLetters := t.deadLetters ++ spent }
  /-- A message is delivered. -/
  | delivery {m : HeldMessage} {rest kept spent : List HeldMessage}
    (hvisible : m.isVisible moment = true)
    (hcount : m.receiveCount < t.maxReceives)
    (hspent : ∀ m ∈ spent, t.maxReceives ≤ m.receiveCount)
    (hmessages : t.messages.Perm (m :: (rest ++ spent)))
    (hkept : kept.Perm (m.deliver receipt (moment + t.visibilityMs) :: rest))
    (horder : (kept.map (·.id)).Sublist (t.messages.map (·.id))) :
    ReceivesAt t receipt moment (some ⟨m.id, receipt, m.message, m.receiveCount + 1⟩)
      { t with messages := kept, deadLetters := t.deadLetters ++ spent }

theorem ReceivesAt.receives {t t' : Transport} {receipt : Uuid} {moment : Nat}
    {found : Option Delivery} (h : ReceivesAt t receipt moment found t') :
    Receives t receipt found t' := by
  cases h with
  | nothing hspent hmessages _ => exact .nothing hspent hmessages
  | delivery _ hcount hspent hmessages hkept _ => exact .delivery hcount hspent hmessages hkept

/-! ## Looking for a message -/

/-- **One look** takes messages out only for the dead letters. -/
theorem lookThrough_cases (t : Transport) (receipt : Uuid) (now : Nat) (l : List HeldMessage) :
    (∀ m ∈ (t.lookThrough receipt now l).exhausted, t.maxReceives ≤ m.receiveCount) ∧
    (((t.lookThrough receipt now l).found = none ∧
        l.Perm ((t.lookThrough receipt now l).kept ++ (t.lookThrough receipt now l).exhausted)) ∨
      ∃ m rest, m.isVisible now = true ∧ m.receiveCount < t.maxReceives ∧
        (t.lookThrough receipt now l).found =
          some ⟨m.id, receipt, m.message, m.receiveCount + 1⟩ ∧
        l.Perm (m :: (rest ++ (t.lookThrough receipt now l).exhausted)) ∧
        (t.lookThrough receipt now l).kept.Perm
          (m.deliver receipt (now + t.visibilityMs) :: rest)) := by
  induction l with
  | nil => exact ⟨by simp [lookThrough], Or.inl ⟨rfl, List.Perm.refl _⟩⟩
  | cons m rest ih =>
    rw [lookThrough]
    split
    · -- Hidden: it stays where it is.
      obtain ⟨hspent, ⟨hfound, hperm⟩ | ⟨m', rest', hvisible, hcount, hfound, hperm, hkept⟩⟩ := ih
      · exact ⟨hspent, Or.inl ⟨hfound, hperm.cons m⟩⟩
      · refine ⟨hspent, Or.inr ⟨m', m :: rest', hvisible, hcount, hfound, ?_, ?_⟩⟩
        · exact (hperm.cons m).trans (List.Perm.swap _ _ _)
        · exact (hkept.cons m).trans (List.Perm.swap _ _ _)
    · next hshown =>
      split
      · next hlimit =>
        -- Spent: it goes to the dead letters.
        have hmore (l : List HeldMessage) (h : ∀ m ∈ l, t.maxReceives ≤ m.receiveCount) :
            ∀ m' ∈ m :: l, t.maxReceives ≤ m'.receiveCount := by
          intro m' hm'
          rcases List.mem_cons.mp hm' with rfl | hm'
          · exact hlimit
          · exact h m' hm'
        obtain ⟨hspent, ⟨hfound, hperm⟩ | ⟨m', rest', hvisible, hcount, hfound, hperm, hkept⟩⟩ := ih
        · refine ⟨hmore _ hspent, Or.inl ⟨hfound, ?_⟩⟩
          exact (hperm.cons m).trans List.perm_middle.symm
        · refine ⟨hmore _ hspent, Or.inr ⟨m', rest', hvisible, hcount, hfound, ?_, hkept⟩⟩
          have hswap : (m :: m' :: (rest' ++ (t.lookThrough receipt now rest).exhausted)).Perm
              (m' :: m :: (rest' ++ (t.lookThrough receipt now rest).exhausted)) :=
            List.Perm.swap _ _ _
          exact (hperm.cons m).trans (hswap.trans (List.perm_middle.symm.cons m'))
      · next hlimit =>
        -- Delivered: what stands behind it is not looked at.
        refine ⟨by simp, Or.inr ⟨m, rest, by simpa using hshown, Nat.lt_of_not_le hlimit, rfl, ?_,
          List.Perm.refl _⟩⟩
        simp

/-- What a look leaves in the queue stays in its order. -/
theorem lookThrough_order (t : Transport) (receipt : Uuid) (now : Nat) (l : List HeldMessage) :
    ((t.lookThrough receipt now l).kept.map (·.id)).Sublist (l.map (·.id)) := by
  induction l with
  | nil => exact List.Sublist.refl _
  | cons m rest ih =>
    rw [lookThrough]
    split
    · exact ih.cons_cons m.id
    · split
      · exact ih.cons m.id
      · exact List.Sublist.refl _

theorem deliverNext_receivesAt (t : Transport) (receipt : Uuid) (now : Nat) :
    ReceivesAt t receipt now (t.deliverNext receipt now).1 (t.deliverNext receipt now).2 := by
  obtain ⟨hspent, hcases⟩ := t.lookThrough_cases receipt now t.messages
  have horder := t.lookThrough_order receipt now t.messages
  show ReceivesAt t receipt now (t.lookThrough receipt now t.messages).found
    { t with
      messages := (t.lookThrough receipt now t.messages).kept
      deadLetters := t.deadLetters ++ (t.lookThrough receipt now t.messages).exhausted }
  obtain ⟨hfound, hperm⟩ | ⟨m, rest, hvisible, hcount, hfound, hperm, hkept⟩ := hcases
  · rw [hfound]
    exact .nothing hspent hperm horder
  · rw [hfound]
    exact .delivery hvisible hcount hspent hperm hkept horder

/-- Finding nothing and then looking again is one receive. -/
theorem ReceivesAt.after_nothing {t t₁ t' : Transport} {receipt : Uuid} {moment₁ moment : Nat}
    {found : Option Delivery} (h₁ : ReceivesAt t receipt moment₁ none t₁)
    (h : ReceivesAt t₁ receipt moment found t') : ReceivesAt t receipt moment found t' := by
  cases h₁ with
  | @nothing kept₁ spent₁ hspent₁ hmessages₁ horder₁ =>
    have hboth (spent : List HeldMessage) (h : ∀ m ∈ spent, t.maxReceives ≤ m.receiveCount) :
        ∀ m ∈ spent₁ ++ spent, t.maxReceives ≤ m.receiveCount := by
      intro m hm
      rcases List.mem_append.mp hm with hm | hm
      · exact hspent₁ m hm
      · exact h m hm
    cases h with
    | @nothing kept spent hspent hmessages horder =>
      -- The dead letters of the first look stand before those of the second.
      rw [List.append_assoc]
      refine .nothing (hboth spent hspent) (hmessages₁.trans ?_) (horder.trans horder₁)
      have hperm : (kept₁ ++ spent₁).Perm (kept ++ spent ++ spent₁) := hmessages.append_right _
      refine hperm.trans ?_
      rw [List.append_assoc]
      exact List.Perm.append_left kept List.perm_append_comm
    | @delivery m rest kept spent hvisible hcount hspent hmessages hkept horder =>
      rw [List.append_assoc]
      refine .delivery hvisible hcount (hboth spent hspent) (hmessages₁.trans ?_) hkept
        (horder.trans horder₁)
      have hperm : (kept₁ ++ spent₁).Perm (m :: (rest ++ spent) ++ spent₁) :=
        hmessages.append_right _
      refine hperm.trans ?_
      rw [List.cons_append, List.append_assoc]
      exact (List.Perm.append_left rest List.perm_append_comm).cons m

/-- **A receive** ends at the moment of its last look. -/
theorem lookAt_receivesAt (t : Transport) (receipt : Uuid) (now : Nat) (moments : List Nat) :
    ReceivesAt t receipt (t.lookAt receipt now moments).1.2 (t.lookAt receipt now moments).1.1
        (t.lookAt receipt now moments).2 ∧
      (t.lookAt receipt now moments).1.2 ∈ now :: moments := by
  -- Over the moments at which it is looked at again, until something is found.
  induction moments generalizing t now with
  | nil => exact ⟨t.deliverNext_receivesAt receipt now, List.mem_singleton_self now⟩
  | cons next rest ih =>
    have hfirst := t.deliverNext_receivesAt receipt now
    rw [lookAt]
    rcases hlook : t.deliverNext receipt now with ⟨_ | d, t₁⟩
    · rw [hlook] at hfirst
      obtain ⟨hlater, hmoment⟩ := ih t₁ next
      exact ⟨hfirst.after_nothing hlater, List.mem_cons_of_mem now hmoment⟩
    · rw [hlook] at hfirst
      exact ⟨hfirst, List.mem_cons_self⟩

theorem lookAt_receives (t : Transport) (receipt : Uuid) (now : Nat) (moments : List Nat) :
    Receives t receipt (t.lookAt receipt now moments).1.1 (t.lookAt receipt now moments).2 :=
  (t.lookAt_receivesAt receipt now moments).1.receives

/-- It is never looked again at a moment that is past. -/
theorem le_of_mem_wakeUps {t : Transport} {now deadline moment : Nat}
    (h : moment ∈ t.wakeUps now deadline) : now ≤ moment := by
  unfold wakeUps at h
  split at h
  · next hlater =>
    rcases List.mem_append.mp h with hmoment | hmoment
    · rw [sortBy_eq_insertionSort, List.mem_insertionSort, List.mem_filter] at hmoment
      exact Nat.le_of_lt (of_decide_eq_true hmoment.2).1
    · rw [List.mem_singleton.mp hmoment]
      exact Nat.le_of_lt hlater
  · cases h

/-- A receive loses no message. -/
theorem Receives.parcels {t t' : Transport} {receipt : Uuid} {found : Option Delivery}
    (h : Receives t receipt found t') :
    (t.messages.map HeldMessage.parcel ++ t.deadLetters.map HeldMessage.parcel).Perm
      (t'.messages.map HeldMessage.parcel ++ t'.deadLetters.map HeldMessage.parcel) := by
  -- The spent messages come from the middle of the queue and stand last with the dead letters.
  have hmove (kept spent : List (Uuid × Message)) :
      (kept ++ spent ++ t.deadLetters.map HeldMessage.parcel).Perm
        (kept ++ (t.deadLetters.map HeldMessage.parcel ++ spent)) := by
    rw [List.append_assoc]
    exact List.perm_append_comm.append_left kept
  cases h with
  | @nothing kept spent hspent hmessages =>
    have hparcels := hmessages.map HeldMessage.parcel
    rw [List.map_append] at hparcels
    simp only [List.map_append]
    exact (hparcels.append_right _).trans (hmove _ _)
  | @delivery m hiddenUntil rest kept spent hcount hspent hmessages hkept =>
    have hparcels := hmessages.map HeldMessage.parcel
    have hkept' := hkept.map HeldMessage.parcel
    simp only [List.map_cons, List.map_append, HeldMessage.parcel_deliver] at hparcels hkept' ⊢
    refine (hparcels.append_right _).trans ?_
    exact (hmove (m.parcel :: rest.map HeldMessage.parcel) _).trans (hkept'.symm.append_right _)

/-- **Where a message comes from** that is in the queue after a receive: it was
    there, or it has been delivered just now. -/
theorem Receives.origin {t t' : Transport} {receipt : Uuid} {found : Option Delivery}
    (h : Receives t receipt found t') {m : HeldMessage} (hm : m ∈ t'.messages) :
    m ∈ t.messages ∨ ∃ m₀ ∈ t.messages, m.parcel = m₀.parcel ∧ m.receipt = some receipt ∧
      m.receiveCount = m₀.receiveCount + 1 ∧ m₀.receiveCount < t.maxReceives ∧
      found = some ⟨m₀.id, receipt, m₀.message, m₀.receiveCount + 1⟩ := by
  cases h with
  | nothing hspent hmessages => exact Or.inl (hmessages.mem_iff.mpr (List.mem_append_left _ hm))
  | @delivery m₀ hiddenUntil rest kept spent hcount hspent hmessages hkept =>
    have hmem := hkept.mem_iff.mp hm
    rcases List.mem_cons.mp hmem with rfl | hrest
    · exact Or.inr ⟨m₀, hmessages.mem_iff.mpr List.mem_cons_self, rfl, rfl, rfl, hcount, rfl⟩
    · refine Or.inl (hmessages.mem_iff.mpr (List.mem_cons_of_mem _ ?_))
      exact List.mem_append_left _ hrest

/-- **What becomes a dead letter** was in the queue and has been delivered too often. -/
theorem Receives.spent {t t' : Transport} {receipt : Uuid} {found : Option Delivery}
    (h : Receives t receipt found t') {m : HeldMessage} (hm : m ∈ t'.deadLetters) :
    m ∈ t.deadLetters ∨ m ∈ t.messages ∧ t.maxReceives ≤ m.receiveCount := by
  cases h with
  | nothing hspent hmessages =>
    rcases List.mem_append.mp hm with hold | hnew
    · exact Or.inl hold
    · exact Or.inr ⟨hmessages.mem_iff.mpr (List.mem_append_right _ hnew), hspent m hnew⟩
  | delivery _ hspent hmessages _ =>
    rcases List.mem_append.mp hm with hold | hnew
    · exact Or.inl hold
    · refine Or.inr ⟨hmessages.mem_iff.mpr (List.mem_cons_of_mem _ ?_), hspent m hnew⟩
      exact List.mem_append_right _ hnew

/-- A receive leaves the settings alone. -/
theorem Receives.settings {t t' : Transport} {receipt : Uuid} {found : Option Delivery}
    (h : Receives t receipt found t') :
    t'.available = t.available ∧ t'.maxReceives = t.maxReceives := by
  cases h <;> exact ⟨rfl, rfl⟩

/-- What an acknowledgement takes out is the first message that is held by the
    receipt. -/
theorem exists_held {t : Transport} {receipt : String}
    (h : t.messages.any (·.isHeldBy receipt) = true) :
    ∃ m, t.messages.find? (·.isHeldBy receipt) = some m ∧
      t.messages.Perm (m :: t.messages.eraseP (·.isHeldBy receipt)) := by
  obtain ⟨x, hx, hheld⟩ := List.any_eq_true.mp h
  obtain ⟨m, before, after, hbefore, hm, hmessages, herase⟩ :=
    List.exists_of_eraseP (p := fun m => m.isHeldBy receipt) hx hheld
  refine ⟨m, ?_, ?_⟩
  · rw [List.find?_eq_some_iff_append]
    exact ⟨hm, before, after, hmessages, fun b hb => by simpa using hbefore b hb⟩
  · rw [herase, hmessages]
    exact List.perm_middle

end Transport

/-! ## Calls -/

namespace World

/-- The world in which a message is about to be sent, with an id drawn for it. -/
def sending (w : World) : World :=
  { w.nextDisturbance.countSend with ids := ⟨w.ids.next + 1⟩ }

theorem aside_sending (w : World) : Aside w w.sending := by
  have hdrawn : Aside w.nextDisturbance.countSend w.sending := by
    refine ⟨⟨⟨_, rfl⟩, rfl, ?_⟩, ⟨_, rfl⟩⟩
    show w.nextDisturbance.countSend.ids.next ≤ w.ids.next + 1
    rw [countSend_ids, nextDisturbance_ids]
    exact Nat.le_succ _
  exact aside_chains.trans
    (aside_chains.trans (aside_nextDisturbance w) (aside_countSend _)) hdrawn

/-- The world with one more message in the transport. -/
def deliver (w : World) (id : Uuid) (m : Message) : World :=
  { w with transport :=
      { w.transport with messages := w.transport.messages ++ [{ id := id, message := m }] } }

end World

namespace Call

open World

variable {w w' : World}

/-- **A message is accepted** under an id that was just drawn, or refused and
    not taken. -/
theorem trySend_eq (m : Message) (w : World) :
    trySend m w = if w.sending.transport.available then
      some (.ok (.ok (.versionFour w.ids.next)), w.sending.deliver (.versionFour w.ids.next) m)
    else some (.ok (.error Transport.offline), w.sending) := by
  have hids : w.nextDisturbance.countSend.ids = w.ids := by
    rw [countSend_ids, nextDisturbance_ids]
  -- What is done before the transport is asked cannot fail.
  have hfresh : trySend m w =
      Attempt.outcome (.onPart World.transport (fun t w => { w with transport := t }) do
        Transport.send (.versionFour w.ids.next) m
        pure (.versionFour w.ids.next)) w.sending := by
    unfold sending
    rw [← hids]
    rfl
  rw [hfresh]
  cases havailable : w.sending.transport.available with
  | true =>
    have hs : Transport.send (.versionFour w.ids.next) m w.sending.transport = some (.ok (),
        (w.sending.deliver (.versionFour w.ids.next) m).transport) := if_pos havailable
    rw [if_pos rfl]
    refine outcome_eq_some_iff.mpr ⟨_, onPart_eq_some_iff.mpr ⟨_, ?_, rfl⟩, rfl⟩
    exact bind_eq_ok_iff.mpr ⟨(), _, hs, rfl⟩
  | false =>
    have hs : Transport.send (.versionFour w.ids.next) m w.sending.transport =
        some (.error Transport.offline, w.sending.transport) := if_neg (by simp [havailable])
    rw [if_neg (by simp)]
    refine outcome_eq_some_iff.mpr ⟨_, onPart_eq_some_iff.mpr ⟨_, ?_, rfl⟩, rfl⟩
    exact bind_eq_some_iff.mpr (Or.inr ⟨_, hs, rfl⟩)

theorem trySend_eq_some {m : Message} {r : Except OperationError (Except TransportError Uuid)}
    (h : trySend m w = some (r, w')) :
    (r = .ok (.ok (.versionFour w.ids.next)) ∧ w.sending.transport.available = true ∧
        w' = w.sending.deliver (.versionFour w.ids.next) m) ∨
      (r = .ok (.error Transport.offline) ∧ w.sending.transport.available = false ∧
        w' = w.sending) := by
  rw [trySend_eq] at h
  split at h
  · next havailable =>
    cases h
    exact Or.inl ⟨rfl, havailable, rfl⟩
  · next havailable =>
    cases h
    exact Or.inr ⟨rfl, by simpa using havailable, rfl⟩

/-- A message that is accepted is put behind those that the transport has. -/
theorem trySend_messages {m : Message} {sent : Except TransportError Uuid}
    (h : trySend m w = some (.ok sent, w')) :
    w'.transport.messages = w.transport.messages ++
      match sent with
      | .ok id => [{ id := id, message := m }]
      | .error _ => [] := by
  obtain ⟨b, hb⟩ := (aside_sending w).transport
  have hsending : w.sending.transport.messages = w.transport.messages := by rw [hb]
  rcases trySend_eq_some h with ⟨hr, -, rfl⟩ | ⟨hr, -, rfl⟩
  · cases hr
    show w.sending.transport.messages ++ _ = _
    rw [hsending]
  · cases hr
    rw [hsending, List.append_nil]

/-- A call on the transport that asks first whether it is available. -/
theorem inTransport_eq_some {α : Type} {m : TransportCall α} {r : Except OperationError α}
    (h : inTransport (Transport.whenAvailable m) w = some (r, w')) :
    (w.transport.available = false ∧ r = .error (.transport Transport.offline) ∧ w' = w) ∨
      ∃ r₀ t', w.transport.available = true ∧ m w.transport = some (r₀, t') ∧
        r = r₀.mapError .transport ∧ w' = { w with transport := t' } := by
  obtain ⟨r₀, hpart, rfl⟩ := mapError_eq_some_iff.mp h
  obtain ⟨t', hm, rfl⟩ := onPart_eq_some_iff.mp hpart
  unfold Transport.whenAvailable at hm
  split at hm
  · next havailable => exact Or.inr ⟨r₀, t', havailable, hm, rfl, rfl⟩
  · next havailable =>
    cases hm
    exact Or.inl ⟨by simpa using havailable, rfl, rfl⟩

/-- **A receive** fails and leaves all messages where they are, or does what
    `Transport.Receives` says, under a receipt that was just drawn. -/
theorem receive_eq_some {waitMs : Nat} {r : Except OperationError (Option Delivery)}
    (h : receive waitMs w = some (r, w')) :
    w'.ids.next = w.ids.next + 1 ∧
      w' = { w.nextDisturbance with ids := w'.ids, transport := w'.transport, clock := w'.clock } ∧
      ((w.nextDisturbance.transport.available = false ∧
          r = .error (.transport Transport.offline) ∧
          w'.transport = w.nextDisturbance.transport) ∨
        ∃ found, r = .ok found ∧
          w.nextDisturbance.transport.Receives (.versionFour w.ids.next) found w'.transport) := by
  obtain ⟨_, w₁, hnext, h⟩ := (answers_modify _).bind_eq_some h
  cases hnext
  obtain ⟨receipt, w₂, hfresh, h⟩ := answers_freshId.bind_eq_some h
  cases hfresh
  obtain ⟨begun, w₃, hread, h⟩ | ⟨e, hread, -⟩ := bind_eq_some_iff.mp h
  · cases hread
    rw [← nextDisturbance_ids w]
    obtain ⟨⟨found, ended⟩, w₄, hreceive, hclock⟩ | ⟨e, hreceive, rfl⟩ := bind_eq_some_iff.mp h
    · obtain ⟨-, hr, -⟩ | ⟨r₀, t', -, hlook, hr, rfl⟩ := inTransport_eq_some hreceive
      · cases hr
      · dsimp only at hlook
        have hreceives := Transport.lookAt_receives w.nextDisturbance.transport
          (.versionFour w.nextDisturbance.ids.next) w.nextDisturbance.clock.elapsed
          (w.nextDisturbance.transport.wakeUps w.nextDisturbance.clock.elapsed
            (w.nextDisturbance.clock.elapsed + waitMs))
        generalize Transport.lookAt _ _ _ _ = look at hlook hreceives
        obtain ⟨⟨found', ended'⟩, t''⟩ := look
        cases hlook
        cases hr
        cases hclock
        exact ⟨rfl, rfl, Or.inr ⟨found, rfl, hreceives⟩⟩
    · obtain ⟨havailable, hr, rfl⟩ | ⟨r₀, t', -, hlook, hr, -⟩ := inTransport_eq_some hreceive
      · cases hr
        exact ⟨rfl, rfl, Or.inl ⟨havailable, rfl, rfl⟩⟩
      · cases hlook
        cases hr
  · cases hread

/-- **An acknowledgement** takes out the first message that is held by the receipt,
    or none. -/
theorem acknowledge_eq_some {receipt : String} {r : Except OperationError Unit}
    (h : acknowledge receipt w = some (r, w')) :
    w' = { w.nextDisturbance with transport := w'.transport } ∧
      ((r = .ok () ∧ ∃ m kept,
          w.nextDisturbance.transport.messages.find? (·.isHeldBy receipt) = some m ∧
          w.nextDisturbance.transport.messages.Perm (m :: kept) ∧
          w'.transport = { w.nextDisturbance.transport with messages := kept }) ∨
        ((∃ cause, r = .error (.transport cause)) ∧
          w'.transport = w.nextDisturbance.transport)) := by
  obtain ⟨_, w₁, hnext, h⟩ := (answers_modify _).bind_eq_some h
  cases hnext
  obtain ⟨-, rfl, rfl⟩ | ⟨r₀, t', -, hack, rfl, rfl⟩ := inTransport_eq_some h
  · exact ⟨rfl, Or.inr ⟨⟨_, rfl⟩, rfl⟩⟩
  · refine ⟨rfl, ?_⟩
    split at hack
    · next hany =>
      cases hack
      obtain ⟨m, hfirst, hperm⟩ := Transport.exists_held hany
      exact Or.inl ⟨rfl, m, _, hfirst, hperm, rfl⟩
    · cases hack
      exact Or.inr ⟨⟨_, rfl⟩, rfl⟩

end Call

/-! ## Polls -/

namespace MessageConsumer

/-- **What a poll does**: at most one receive, one attempt on the order that the
    message names, and one acknowledgement, in this order. -/
inductive Polls (c : MessageConsumer) (w : World) : World → Prop where
  /-- The transport refuses. -/
  | refused {cause : OperationError} {w' : World}
    (hreceive : Call.receive c.waitMs w = some (.error cause, w')) : Polls c w w'
  /-- Nothing has come. -/
  | idle {w' : World} (hreceive : Call.receive c.waitMs w = some (.ok none, w')) : Polls c w w'
  /-- The message is no announcement and stays with the transport. -/
  | malformed {d : Delivery} {cause : PayloadError} {w' : World}
    (hreceive : Call.receive c.waitMs w = some (.ok (some d), w'))
    (hp : Payload.ofBody? d.message.body = .error cause) : Polls c w w'
  /-- The order is not done, and the message stays with the transport. -/
  | attempted {d : Delivery} {p : Payload} {r : Except OperationError Outcome} {w₁ w' : World}
    (hreceive : Call.receive c.waitMs w = some (.ok (some d), w₁))
    (hp : Payload.ofBody? d.message.body = .ok p)
    (hprocess : process p.order c.maxRetries w₁ = some (r, w')) (hr : r ≠ .ok .processed) :
    Polls c w w'
  /-- The order is done. -/
  | acknowledged {d : Delivery} {p : Payload} {r : Except OperationError Unit} {w₁ w₂ w' : World}
    (hreceive : Call.receive c.waitMs w = some (.ok (some d), w₁))
    (hp : Payload.ofBody? d.message.body = .ok p)
    (hprocess : process p.order c.maxRetries w₁ = some (.ok .processed, w₂))
    (hack : Call.acknowledge (toString d.receipt) w₂ = some (r, w')) : Polls c w w'

theorem poll_polls {c : MessageConsumer} {w w' : World} {r : Except OperationError Reception}
    (h : c.poll w = some (r, w')) : c.Polls w w' := by
  obtain ⟨found, w₁, hreceive, hrest⟩ | ⟨e, hreceive, -⟩ := bind_eq_some_iff.mp h
  · cases found with
    | none =>
      cases hrest
      exact .idle hreceive
    | some d =>
      dsimp only at hrest
      cases hp : Payload.ofBody? d.message.body with
      | error cause =>
        rw [hp] at hrest
        cases hrest
        exact .malformed hreceive hp
      | ok p =>
        rw [hp] at hrest
        obtain ⟨r₁, w₂, hprocess, hend⟩ := outcome_bind_eq_some hrest
        rcases r₁ with cause | outcome
        · cases hend
          exact .attempted hreceive hp hprocess (by simp)
        cases outcome with
        | processed =>
          obtain ⟨r₂, w₃, hack, hpure⟩ := outcome_bind_eq_some hend
          cases hpure
          exact .acknowledged hreceive hp hprocess hack
        | retry | failed =>
          cases hend
          exact .attempted hreceive hp hprocess (by simp)
  · exact .refused hreceive

end MessageConsumer

end OrderFlow
