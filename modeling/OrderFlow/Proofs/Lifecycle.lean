import Mathlib.Data.List.Induction
import OrderFlow.Proofs.Transport

/-! # The life of a message

    A transport is used for a while: messages are sent, received and
    acknowledged under any receipts, it comes and goes, and time passes
    between the calls and inside of receives.

    Every message that was accepted is in the queue, with the dead letters
    or deleted, and never two of these.  While it is in the queue it keeps
    its place, it is delivered a limited number of times, and two of its
    deliveries are at least the visibility timeout apart; after it has left
    the queue it is not delivered any more.

    What one use does is `Use.Took`; what it keeps is `Lives.step`. -/

namespace OrderFlow.Transport

/-! ## Uses -/

/-- A transport, and the stopwatch that its users read. -/
structure Station where
  /-- The transport. -/
  transport : Transport
  /-- Milliseconds on the stopwatch. -/
  now : Nat := 0

/-- A transport that nobody has used yet. -/
def Station.unused (visibilityMs maxReceives : Nat) : Station :=
  { transport := (({} : Transport).withVisibility visibilityMs).withMaxReceives maxReceives }

/-- One use of a transport, or what happens beside it. -/
inductive Use where
  /-- A message is sent under an id. -/
  | send (id : Uuid) (m : Message)
  /-- Somebody waits for a message for up to `waitMs` milliseconds. -/
  | receive (receipt : Uuid) (waitMs : Nat)
  /-- A delivery is acknowledged. -/
  | acknowledge (receipt : String)
  /-- The transport goes down or comes up. -/
  | setAvailable (value : Bool)
  /-- Time passes. -/
  | pause (ms : Nat)

/-- What a use has come to. -/
inductive Entry where
  /-- A message was accepted. -/
  | accepted (id : Uuid)
  /-- A receive has ended, with a delivery or without one. -/
  | received (found : Option Delivery) (moment : Nat)
  /-- These messages were deleted. -/
  | deleted (ids : List Uuid)
  /-- The transport has refused. -/
  | failed (cause : TransportError)
  /-- Nothing that concerns a message. -/
  | outside
  deriving DecidableEq

/-- The ids of the messages in the queue. -/
def queued (t : Transport) : List Uuid :=
  t.messages.map (·.id)

/-- The ids of the dead letters. -/
def dead (t : Transport) : List Uuid :=
  t.deadLetters.map (·.id)

namespace Use

/-- Is this a call on the transport? -/
def IsCall : Use → Prop
  | .send _ _ | .receive _ _ | .acknowledge _ => True
  | .setAvailable _ | .pause _ => False

/-- The use. -/
def run (use : Use) (c : Station) : Option (Entry × Station) :=
  match use with
  | .send id m => (Transport.send id m c.transport).map fun p =>
    match p.1 with
    | .ok _ => (.accepted id, { c with transport := p.2 })
    | .error cause => (.failed cause, { c with transport := p.2 })
  | .receive receipt waitMs => (Transport.receive receipt c.now waitMs c.transport).map fun p =>
    match p.1 with
    | .ok (found, ended) => (.received found (max c.now ended), ⟨p.2, max c.now ended⟩)
    | .error cause => (.failed cause, { c with transport := p.2 })
  | .acknowledge receipt => (Transport.acknowledge receipt c.transport).map fun p =>
    match p.1 with
    | .ok _ => (.deleted (c.transport.queued.filter fun id => id ∉ p.2.queued),
        { c with transport := p.2 })
    | .error cause => (.failed cause, { c with transport := p.2 })
  | .setAvailable value =>
    some (.outside, { c with transport := { c.transport with available := value } })
  | .pause ms => some (.outside, { c with now := c.now + ms })

end Use

/-- What the uses have come to, one after the other. -/
def runAll (c : Station) (uses : List Use) : Option (List Entry × Station) :=
  uses.foldlM (fun p use => (use.run p.2).map fun q => (p.1 ++ [q.1], q.2)) ([], c)

/-! ## What the entries say -/

/-- The ids under which messages were sent. -/
def sentIds (uses : List Use) : List Uuid :=
  uses.filterMap fun
    | .send id _ => some id
    | _ => none

/-- The ids of the messages that were accepted, in the order in which they were sent. -/
def accepted (entries : List Entry) : List Uuid :=
  entries.filterMap fun
    | .accepted id => some id
    | _ => none

/-- The ids of the messages that were deleted. -/
def deleted (entries : List Entry) : List Uuid :=
  entries.flatMap fun
    | .deleted ids => ids
    | _ => []

/-- The deliveries of a message, and when they were made. -/
def deliveries (id : Uuid) (entries : List Entry) : List (Delivery × Nat) :=
  entries.filterMap fun
    | .received (some d) moment => if d.id = id then some (d, moment) else none
    | _ => none

/-! ## What one use does -/

/-- **What a use has done** that has come to this. -/
inductive Use.Took (c : Station) : Use → Entry → Station → Prop where
  | accepted {id : Uuid} {m : Message} : Took c (.send id m) (.accepted id)
    { c with transport :=
      { c.transport with messages := c.transport.messages ++ [{ id := id, message := m }] } }
  | received {receipt : Uuid} {waitMs moment : Nat} {found : Option Delivery} {t' : Transport}
    (hlater : c.now ≤ moment) (hreceives : c.transport.ReceivesAt receipt moment found t') :
    Took c (.receive receipt waitMs) (.received found moment) ⟨t', moment⟩
  | deleted {receipt : String} {m : HeldMessage} {kept : List HeldMessage}
    (hmessages : c.transport.messages.Perm (m :: kept))
    (horder : kept.Sublist c.transport.messages) :
    Took c (.acknowledge receipt)
      (.deleted (c.transport.queued.filter fun id => id ∉ kept.map (·.id)))
      { c with transport := { c.transport with messages := kept } }
  | failed {use : Use} {cause : TransportError} (hcall : use.IsCall) :
    Took c use (.failed cause) c
  | setAvailable {value : Bool} : Took c (.setAvailable value) .outside
    { c with transport := { c.transport with available := value } }
  | pause {ms : Nat} : Took c (.pause ms) .outside { c with now := c.now + ms }

section uses
variable {c c' : Station} {use : Use} {uses more : List Use} {entry : Entry}
  {entries later : List Entry}

/-- While it is down the transport refuses every call and does nothing. -/
theorem Use.run_of_down (hcall : use.IsCall) (hdown : c.transport.available = false) :
    use.run c = some (.failed offline, c) := by
  have hnot : ¬ c.transport.available = true := by simp [hdown]
  cases use with
  | send id m =>
    have hsend : Transport.send id m c.transport = some (.error offline, c.transport) :=
      if_neg hnot
    simp only [run, hsend]
    rfl
  | receive receipt waitMs =>
    have hreceive : Transport.receive receipt c.now waitMs c.transport =
        some (.error offline, c.transport) := if_neg hnot
    simp only [run, hreceive]
    rfl
  | acknowledge receipt =>
    have hack : Transport.acknowledge receipt c.transport = some (.error offline, c.transport) :=
      if_neg hnot
    simp only [run, hack]
    rfl
  | setAvailable | pause => cases hcall

/-- **Every use** comes to something. -/
theorem Use.run_took (use : Use) (c : Station) :
    ∃ entry c', use.run c = some (entry, c') ∧ use.Took c entry c' := by
  cases havailable : c.transport.available with
  | false =>
    cases use with
    | send | receive | acknowledge =>
      exact ⟨_, _, run_of_down trivial havailable, .failed trivial⟩
    | setAvailable value => exact ⟨_, _, rfl, .setAvailable⟩
    | pause ms => exact ⟨_, _, rfl, .pause⟩
  | true =>
    cases use with
    | send id m =>
      have hsend : Transport.send id m c.transport = some (.ok (), { c.transport with
          messages := c.transport.messages ++ [{ id := id, message := m }] }) :=
        if_pos havailable
      refine ⟨_, _, ?_, .accepted⟩
      simp only [run, hsend]
      rfl
    | receive receipt waitMs =>
      obtain ⟨hreceives, hmoment⟩ := c.transport.lookAt_receivesAt receipt c.now
        (c.transport.wakeUps c.now (c.now + waitMs))
      have hreceive : Transport.receive receipt c.now waitMs c.transport =
          some (.ok (c.transport.lookAt receipt c.now
              (c.transport.wakeUps c.now (c.now + waitMs))).1,
            (c.transport.lookAt receipt c.now (c.transport.wakeUps c.now (c.now + waitMs))).2) :=
        if_pos havailable
      generalize c.transport.lookAt receipt c.now _ = look at hreceives hmoment hreceive
      obtain ⟨⟨found, ended⟩, t'⟩ := look
      have hlater : c.now ≤ ended := by
        rcases List.mem_cons.mp hmoment with hnow | hwake
        · exact Nat.le_of_eq hnow.symm
        · exact le_of_mem_wakeUps hwake
      refine ⟨_, _, ?_, .received hlater hreceives⟩
      simp only [run, hreceive, Option.map_some, Nat.max_eq_right hlater]
    | acknowledge receipt =>
      have hack : Transport.acknowledge receipt c.transport =
          if c.transport.messages.any (·.isHeldBy receipt) then
            some (.ok (), { c.transport with
              messages := c.transport.messages.eraseP (·.isHeldBy receipt) })
          else some (.error (.unknownReceipt receipt), c.transport) :=
        if_pos havailable
      by_cases hany : c.transport.messages.any (·.isHeldBy receipt) = true
      · obtain ⟨m, -, hperm⟩ := exists_held hany
        refine ⟨_, _, ?_, .deleted hperm List.eraseP_sublist⟩
        simp only [run, hack, if_pos hany]
        rfl
      · refine ⟨.failed (.unknownReceipt receipt), c, ?_, .failed trivial⟩
        simp only [run, hack, if_neg hany]
        rfl
    | setAvailable value => exact ⟨_, _, rfl, .setAvailable⟩
    | pause ms => exact ⟨_, _, rfl, .pause⟩

end uses

/-! ## What holds after every run -/

/-- **The lives of messages**, with a visibility timeout of `v` and at most `R`
    deliveries a message.  An accepted message is in the queue, with the dead
    letters or deleted, and only one of these. -/
structure Lives (v R : Nat) (entries : List Entry) (c : Station) : Prop where
  visibility : c.transport.visibilityMs = v
  limit : c.transport.maxReceives = R
  /-- No message is accepted twice. -/
  distinct : (accepted entries).Nodup
  whole : (accepted entries).Perm
    (c.transport.queued ++ c.transport.dead ++ deleted entries)
  /-- The queue is in the order in which the messages were sent. -/
  ordered : c.transport.queued.Sublist (accepted entries)
  known : ∀ {id}, deliveries id entries ≠ [] → id ∈ accepted entries
  /-- The receive count of a delivery says which delivery of its message it is. -/
  numbered : ∀ id, (deliveries id entries).map (·.1.receiveCount) =
    List.range' 1 (deliveries id entries).length
  counted : ∀ m ∈ c.transport.messages ++ c.transport.deadLetters,
    m.receiveCount = (deliveries m.id entries).length
  limited : ∀ id, (deliveries id entries).length ≤ R
  spent : ∀ m ∈ c.transport.deadLetters, (deliveries m.id entries).length = R
  /-- Between two deliveries of a message the visibility timeout passes. -/
  spaced : ∀ id, (deliveries id entries).Pairwise fun a b => a.2 + v ≤ b.2
  hidden : ∀ m ∈ c.transport.messages, ∀ x ∈ deliveries m.id entries,
    ∃ moment, m.hiddenUntil = some moment ∧ x.2 + v ≤ moment

section lives
variable {v R : Nat} {c c' : Station} {use : Use} {uses : List Use} {entry : Entry}
  {entries : List Entry} {id : Uuid}

theorem accepted_append (entries more : List Entry) :
    accepted (entries ++ more) = accepted entries ++ accepted more :=
  List.filterMap_append

theorem deleted_append (entries more : List Entry) :
    deleted (entries ++ more) = deleted entries ++ deleted more :=
  List.flatMap_append

theorem deliveries_append (id : Uuid) (entries more : List Entry) :
    deliveries id (entries ++ more) = deliveries id entries ++ deliveries id more :=
  List.filterMap_append

theorem deliveries_received (d : Delivery) (moment : Nat) (id : Uuid) :
    deliveries id [.received (some d) moment] = if d.id = id then [(d, moment)] else [] := by
  unfold deliveries
  rw [List.filterMap_cons]
  by_cases hid : d.id = id <;> simp [hid]

/-- A delivery is one more of its own message. -/
theorem deliveries_own (entries : List Entry) (d : Delivery) (moment : Nat) :
    deliveries d.id (entries ++ [.received (some d) moment]) =
      deliveries d.id entries ++ [(d, moment)] := by
  rw [deliveries_append, deliveries_received, if_pos rfl]

/-- It is none of any other. -/
theorem deliveries_other (entries : List Entry) {d : Delivery} (moment : Nat) (hid : id ≠ d.id) :
    deliveries id (entries ++ [.received (some d) moment]) = deliveries id entries := by
  rw [deliveries_append, deliveries_received, if_neg (Ne.symm hid), List.append_nil]

/-- Messages that leave the queue for the dead letters. -/
theorem perm_retired {before kept spent dead : List Uuid} (h : before.Perm (kept ++ spent)) :
    (before ++ dead).Perm (kept ++ (dead ++ spent)) := by
  refine (h.append_right _).trans ?_
  rw [List.append_assoc]
  exact List.Perm.append_left _ List.perm_append_comm

theorem lives_unused (visibilityMs maxReceives : Nat) :
    Lives (min visibilityMs maxVisibilityMs) (max maxReceives 1) []
      (.unused visibilityMs maxReceives) where
  visibility := rfl
  limit := rfl
  distinct := List.nodup_nil
  whole := List.Perm.refl _
  ordered := List.Sublist.refl _
  known h := absurd rfl h
  numbered id := rfl
  counted m hm := by cases hm
  limited id := Nat.zero_le _
  spent m hm := by cases hm
  spaced id := List.Pairwise.nil
  hidden m hm := by cases hm

/-- The three places where a message can be have no message in common. -/
theorem Lives.places_nodup (h : Lives v R entries c) :
    (c.transport.queued ++ c.transport.dead ++ deleted entries).Nodup :=
  h.whole.nodup_iff.mp h.distinct

theorem Lives.queued_nodup (h : Lives v R entries c) : c.transport.queued.Nodup :=
  (List.nodup_append.mp (List.nodup_append.mp h.places_nodup).1).1

/-- What is in the queue has not left it. -/
theorem Lives.not_gone (h : Lives v R entries c) (hid : id ∈ c.transport.queued) :
    id ∉ c.transport.dead ++ deleted entries := by
  have hplaces := h.places_nodup
  rw [List.append_assoc] at hplaces
  exact fun hgone => (List.nodup_append.mp hplaces).2.2 id hid id hgone rfl

theorem Lives.accepted_of_queued (h : Lives v R entries c) (hid : id ∈ c.transport.queued) :
    id ∈ accepted entries :=
  h.ordered.subset hid

/-- No other message has the id of one in the queue. -/
theorem Lives.others (h : Lives v R entries c) {m : HeldMessage} {others : List HeldMessage}
    (hmessages : c.transport.messages.Perm (m :: others)) :
    (∀ m' ∈ others, m' ∈ c.transport.messages ∧ m'.id ≠ m.id) ∧
      ∀ m' ∈ c.transport.deadLetters, m'.id ≠ m.id := by
  have hids : c.transport.queued.Perm (m.id :: others.map (·.id)) := hmessages.map _
  have hnodup := hids.nodup_iff.mp h.queued_nodup
  constructor
  · intro m' hm'
    refine ⟨hmessages.mem_iff.mpr (List.mem_cons_of_mem _ hm'), fun heq => ?_⟩
    exact (List.nodup_cons.mp hnodup).1 (heq ▸ List.mem_map_of_mem hm')
  · intro m' hm' heq
    have hqueued : m.id ∈ c.transport.queued := hids.mem_iff.mpr List.mem_cons_self
    exact h.not_gone hqueued (List.mem_append_left _ (heq ▸ List.mem_map_of_mem hm'))

/-- When a message is visible again, the timeout of its deliveries is over. -/
theorem Lives.timeout_over (h : Lives v R entries c) {m : HeldMessage} {moment : Nat}
    (hm : m ∈ c.transport.messages) (hvisible : m.isVisible moment = true) :
    ∀ x ∈ deliveries m.id entries, x.2 + v ≤ moment := by
  intro x hx
  obtain ⟨shown, hshown, hle⟩ := h.hidden m hm x hx
  unfold HeldMessage.isVisible at hvisible
  rw [hshown] at hvisible
  exact Nat.le_trans hle (of_decide_eq_true hvisible)

/-- **Deliveries of one message**: numbered in their order, limited, and a timeout
    apart. -/
structure Paced (v R : Nat) (l : List (Delivery × Nat)) : Prop where
  numbered : l.map (·.1.receiveCount) = List.range' 1 l.length
  limited : l.length ≤ R
  spaced : l.Pairwise fun a b => a.2 + v ≤ b.2

theorem Lives.paced (h : Lives v R entries c) (id : Uuid) : Paced v R (deliveries id entries) :=
  ⟨h.numbered id, h.limited id, h.spaced id⟩

/-- One more delivery, when the timeout of those before is over. -/
theorem Paced.snoc {l : List (Delivery × Nat)} {d : Delivery} {moment : Nat} (h : Paced v R l)
    (hnumber : d.receiveCount = l.length + 1) (hlimit : l.length < R)
    (hover : ∀ x ∈ l, x.2 + v ≤ moment) : Paced v R (l ++ [(d, moment)]) where
  numbered := by
    rw [List.map_append, List.length_append, h.numbered]
    show _ ++ [d.receiveCount] = List.range' 1 (_ + 1)
    rw [List.range'_1_concat, hnumber, Nat.add_comm 1]
  limited := by
    rw [List.length_append]
    exact hlimit
  spaced := by
    rw [List.pairwise_append]
    refine ⟨h.spaced, List.pairwise_singleton _ _, fun x hx y hy => ?_⟩
    rw [List.mem_singleton.mp hy]
    exact hover x hx

/-- A message that the queue gives up was delivered as often as allowed: it is never
    delivered more often. -/
theorem Lives.used_up (h : Lives v R entries c) {m : HeldMessage}
    (hm : m ∈ c.transport.messages) (hcount : c.transport.maxReceives ≤ m.receiveCount) :
    (deliveries m.id entries).length = R := by
  rw [h.counted m (List.mem_append_left _ hm), h.limit] at hcount
  exact Nat.le_antisymm (h.limited m.id) hcount

/-- After one more delivery all deliveries are so. -/
theorem Lives.paced_received (h : Lives v R entries c) {m : HeldMessage} {d : Delivery}
    {moment : Nat} (hm : m ∈ c.transport.messages) (hid : d.id = m.id)
    (hnumber : d.receiveCount = m.receiveCount + 1)
    (hcount : m.receiveCount < c.transport.maxReceives) (hvisible : m.isVisible moment = true)
    (id : Uuid) : Paced v R (deliveries id (entries ++ [.received (some d) moment])) := by
  by_cases hne : id = d.id
  · subst hne
    have hbefore := h.counted m (List.mem_append_left _ hm)
    rw [deliveries_own]
    rw [← hid] at hbefore
    refine (h.paced d.id).snoc ?_ ?_ ?_
    · rw [hnumber, hbefore]
    · rwa [← hbefore, ← h.limit]
    · rw [hid]
      exact h.timeout_over hm hvisible
  · rw [deliveries_other entries moment hne]
    exact h.paced id

/-- Where the messages are after a step that accepts none. -/
theorem Lives.whole_snoc (h : Lives v R entries c) (haccepted : accepted [entry] = [])
    {queued' dead' : List Uuid}
    (hwhole : (c.transport.queued ++ c.transport.dead).Perm (queued' ++ dead' ++ deleted [entry])) :
    (accepted (entries ++ [entry])).Perm (queued' ++ dead' ++ deleted (entries ++ [entry])) := by
  rw [accepted_append, haccepted, List.append_nil, deleted_append, ← List.append_assoc]
  refine h.whole.trans ((hwhole.append_right _).trans ?_)
  -- What was deleted before stands behind what is deleted now.
  rw [List.append_assoc, List.append_assoc _ (deleted entries)]
  exact List.Perm.append_left _ List.perm_append_comm

/-- A step in which no message is accepted or delivered: messages only leave the
    queue, and they go to the dead letters or are deleted. -/
theorem Lives.moved (h : Lives v R entries c) (haccepted : accepted [entry] = [])
    (hdeliveries : ∀ id, deliveries id [entry] = [])
    (hvisibility : c'.transport.visibilityMs = c.transport.visibilityMs)
    (hlimit : c'.transport.maxReceives = c.transport.maxReceives)
    (hmessages : ∀ m ∈ c'.transport.messages, m ∈ c.transport.messages)
    (hdead : ∀ m ∈ c'.transport.deadLetters, m ∈ c.transport.deadLetters ∨
      (m ∈ c.transport.messages ∧ c.transport.maxReceives ≤ m.receiveCount))
    (horder : c'.transport.queued.Sublist c.transport.queued)
    (hwhole : (c.transport.queued ++ c.transport.dead).Perm
      (c'.transport.queued ++ c'.transport.dead ++ deleted [entry])) :
    Lives v R (entries ++ [entry]) c' := by
  have hsame : accepted (entries ++ [entry]) = accepted entries := by
    rw [accepted_append, haccepted, List.append_nil]
  have hnone (id : Uuid) : deliveries id (entries ++ [entry]) = deliveries id entries := by
    rw [deliveries_append, hdeliveries, List.append_nil]
  exact {
    visibility := hvisibility.trans h.visibility
    limit := hlimit.trans h.limit
    distinct := by
      rw [hsame]
      exact h.distinct
    whole := h.whole_snoc haccepted hwhole
    ordered := by
      rw [hsame]
      exact horder.trans h.ordered
    known := by
      intro id hid
      rw [hsame]
      exact h.known (hnone id ▸ hid)
    numbered := by simpa only [hnone] using h.numbered
    counted := by
      intro m hm
      rw [hnone]
      refine h.counted m ?_
      rcases List.mem_append.mp hm with hm | hm
      · exact List.mem_append_left _ (hmessages m hm)
      · rcases hdead m hm with hm | ⟨hm, -⟩
        · exact List.mem_append_right _ hm
        · exact List.mem_append_left _ hm
    limited := by simpa only [hnone] using h.limited
    spent := by
      intro m hm
      rw [hnone]
      rcases hdead m hm with hm | ⟨hm, hcount⟩
      · exact h.spent m hm
      · exact h.used_up hm hcount
    spaced := by simpa only [hnone] using h.spaced
    hidden := by
      intro m hm
      rw [hnone]
      exact h.hidden m (hmessages m hm) }

/-- A message is accepted. -/
theorem Lives.accept (h : Lives v R entries c) (hnew : id ∉ accepted entries) (m : Message) :
    Lives v R (entries ++ [.accepted id]) { c with transport :=
      { c.transport with messages := c.transport.messages ++ [{ id := id, message := m }] } } := by
  have hmore : accepted (entries ++ [.accepted id]) = accepted entries ++ [id] :=
    accepted_append _ _
  have hdeleted : deleted (entries ++ [.accepted id]) = deleted entries := by
    rw [deleted_append]
    exact List.append_nil _
  have hnone (i : Uuid) : deliveries i (entries ++ [.accepted id]) = deliveries i entries := by
    rw [deliveries_append]
    exact List.append_nil _
  have hqueued : queued { c.transport with
      messages := c.transport.messages ++ [{ id := id, message := m }] } =
        c.transport.queued ++ [id] := by
    unfold queued
    rw [List.map_append]
    rfl
  -- It was not delivered before it was accepted.
  have hundelivered : deliveries id entries = [] :=
    Classical.byContradiction fun hsome => hnew (h.known hsome)
  exact {
    visibility := h.visibility
    limit := h.limit
    distinct := by
      rw [hmore]
      exact List.nodup_append.mpr ⟨h.distinct, List.pairwise_singleton _ id, by
        rintro i hi j hj rfl
        exact hnew (List.mem_singleton.mp hj ▸ hi)⟩
    whole := by
      rw [hmore, hdeleted, hqueued]
      show (accepted entries ++ [id]).Perm
        (c.transport.queued ++ [id] ++ c.transport.dead ++ deleted entries)
      have hlast : (c.transport.queued ++ c.transport.dead ++ deleted entries ++ [id]).Perm
          (c.transport.queued ++ [id] ++ c.transport.dead ++ deleted entries) := by
        simp only [List.append_assoc]
        refine List.Perm.append_left _ ?_
        rw [← List.append_assoc]
        exact List.perm_append_comm
      exact (h.whole.append_right [id]).trans hlast
    ordered := by
      rw [hmore, hqueued]
      exact h.ordered.append (List.Sublist.refl _)
    known := by
      intro i hi
      rw [hmore]
      exact List.mem_append_left _ (h.known (hnone i ▸ hi))
    numbered := by simpa only [hnone] using h.numbered
    counted := by
      intro m' hm'
      rw [hnone]
      rcases List.mem_append.mp hm' with hm' | hm'
      · rcases List.mem_append.mp hm' with hm' | hm'
        · exact h.counted m' (List.mem_append_left _ hm')
        · rw [List.mem_singleton.mp hm', hundelivered]
          rfl
      · exact h.counted m' (List.mem_append_right _ hm')
    limited := by simpa only [hnone] using h.limited
    spent := by simpa only [hnone] using h.spent
    spaced := by simpa only [hnone] using h.spaced
    hidden := by
      intro m' hm' x hx
      rw [hnone] at hx
      rcases List.mem_append.mp hm' with hm' | hm'
      · exact h.hidden m' hm' x hx
      · rw [List.mem_singleton.mp hm', hundelivered] at hx
        cases hx }

/-! ### A delivery -/

section delivery
variable {m : HeldMessage} {d : Delivery} {receipt : Uuid} {moment : Nat}
  {rest kept spent : List HeldMessage}

/-- **A delivery** of the message `m` at `moment`: the messages in `spent` have become dead
    letters before, and those in `rest` stay as they are. -/
structure Delivers (c : Station) (m : HeldMessage) (d : Delivery) (receipt : Uuid) (moment : Nat)
    (rest kept spent : List HeldMessage) : Prop where
  own : d.id = m.id
  number : d.receiveCount = m.receiveCount + 1
  visible : m.isVisible moment = true
  allowed : m.receiveCount < c.transport.maxReceives
  usedUp : ∀ m ∈ spent, c.transport.maxReceives ≤ m.receiveCount
  before : c.transport.messages.Perm (m :: (rest ++ spent))
  after : kept.Perm (m.deliver receipt (moment + c.transport.visibilityMs) :: rest)
  order : (kept.map (·.id)).Sublist c.transport.queued

theorem Delivers.mem (hd : Delivers c m d receipt moment rest kept spent) :
    m ∈ c.transport.messages :=
  hd.before.mem_iff.mpr List.mem_cons_self

/-- It is one more delivery of its own message. -/
theorem Delivers.deliveries_own (hd : Delivers c m d receipt moment rest kept spent)
    (entries : List Entry) : deliveries m.id (entries ++ [.received (some d) moment]) =
      deliveries m.id entries ++ [(d, moment)] :=
  hd.own ▸ Transport.deliveries_own entries d moment

/-- It is none of the other messages, wherever they are. -/
theorem Lives.deliveries_others (h : Lives v R entries c)
    (hd : Delivers c m d receipt moment rest kept spent) {m' : HeldMessage}
    (hm' : m' ∈ rest ++ spent ∨ m' ∈ c.transport.deadLetters) :
    deliveries m'.id (entries ++ [.received (some d) moment]) = deliveries m'.id entries := by
  obtain ⟨hrest, hdead⟩ := h.others hd.before
  apply deliveries_other
  rw [hd.own]
  rcases hm' with hm' | hm'
  · exact (hrest m' hm').2
  · exact hdead m' hm'

/-- After a delivery the messages still count their deliveries. -/
theorem Lives.counted_delivered (h : Lives v R entries c)
    (hd : Delivers c m d receipt moment rest kept spent) :
    ∀ m' ∈ kept ++ (c.transport.deadLetters ++ spent),
      m'.receiveCount = (deliveries m'.id (entries ++ [.received (some d) moment])).length := by
  have hbefore := h.counted m (List.mem_append_left _ hd.mem)
  have hothers {m' : HeldMessage} (hm' : m' ∈ rest ++ spent) : m'.receiveCount =
      (deliveries m'.id (entries ++ [.received (some d) moment])).length := by
    rw [h.deliveries_others hd (Or.inl hm')]
    exact h.counted m' (List.mem_append_left _ ((h.others hd.before).1 m' hm').1)
  intro m' hm'
  rcases List.mem_append.mp hm' with hkept | hgone
  · rcases List.mem_cons.mp (hd.after.mem_iff.mp hkept) with rfl | hrest
    · show m.receiveCount + 1 =
        (deliveries m.id (entries ++ [.received (some d) moment])).length
      rw [hd.deliveries_own, List.length_append, hbefore]
      rfl
    · exact hothers (List.mem_append_left _ hrest)
  · rcases List.mem_append.mp hgone with hdead | hspent
    · rw [h.deliveries_others hd (Or.inr hdead)]
      exact h.counted m' (List.mem_append_right _ hdead)
    · exact hothers (List.mem_append_right _ hspent)

/-- After a delivery the dead letters have had all their deliveries, the new ones too. -/
theorem Lives.spent_delivered (h : Lives v R entries c)
    (hd : Delivers c m d receipt moment rest kept spent) :
    ∀ m' ∈ c.transport.deadLetters ++ spent,
      (deliveries m'.id (entries ++ [.received (some d) moment])).length = R := by
  intro m' hm'
  rcases List.mem_append.mp hm' with hdead | hspent
  · rw [h.deliveries_others hd (Or.inr hdead)]
    exact h.spent m' hdead
  · have hothers : m' ∈ rest ++ spent := List.mem_append_right _ hspent
    rw [h.deliveries_others hd (Or.inl hothers)]
    exact h.used_up ((h.others hd.before).1 m' hothers).1 (hd.usedUp m' hspent)

/-- After a delivery a message in the queue is hidden until the timeout of all its
    deliveries is over, the new one included. -/
theorem Lives.hidden_delivered (h : Lives v R entries c)
    (hd : Delivers c m d receipt moment rest kept spent) :
    ∀ m' ∈ kept, ∀ x ∈ deliveries m'.id (entries ++ [.received (some d) moment]),
      ∃ shown, m'.hiddenUntil = some shown ∧ x.2 + v ≤ shown := by
  intro m' hm' x hx
  rcases List.mem_cons.mp (hd.after.mem_iff.mp hm') with rfl | hrest
  · refine ⟨_, rfl, ?_⟩
    change x ∈ deliveries m.id (entries ++ [.received (some d) moment]) at hx
    rw [hd.deliveries_own] at hx
    rw [h.visibility]
    rcases List.mem_append.mp hx with hx | hx
    · exact Nat.le_add_right_of_le (h.timeout_over hd.mem hd.visible x hx)
    · obtain rfl := List.mem_singleton.mp hx
      exact Nat.le_refl _
  · have hothers : m' ∈ rest ++ spent := List.mem_append_left _ hrest
    rw [h.deliveries_others hd (Or.inl hothers)] at hx
    exact h.hidden m' ((h.others hd.before).1 m' hothers).1 x hx

/-- A delivery leaves every message in one place. -/
theorem Lives.whole_delivered (h : Lives v R entries c)
    (hd : Delivers c m d receipt moment rest kept spent) :
    (accepted (entries ++ [.received (some d) moment])).Perm
      (kept.map (·.id) ++ (c.transport.deadLetters ++ spent).map (·.id) ++
        deleted (entries ++ [.received (some d) moment])) := by
  have hbefore : c.transport.queued.Perm (m.id :: (rest ++ spent).map (·.id)) := hd.before.map _
  have hafter : (kept.map (·.id)).Perm (m.id :: rest.map (·.id)) := hd.after.map _
  rw [List.map_append, ← List.cons_append] at hbefore
  refine h.whole_snoc rfl ?_
  show (c.transport.queued ++ c.transport.dead).Perm
    (kept.map (·.id) ++ (c.transport.deadLetters ++ spent).map (·.id) ++ [])
  rw [List.append_nil, List.map_append]
  exact perm_retired (hbefore.trans (hafter.symm.append_right _))

/-- Only what was accepted has been delivered. -/
theorem Lives.known_delivered (h : Lives v R entries c)
    (hd : Delivers c m d receipt moment rest kept spent)
    (hsome : deliveries id (entries ++ [.received (some d) moment]) ≠ []) :
    id ∈ accepted entries := by
  by_cases hid : id = m.id
  · subst hid
    exact h.accepted_of_queued (List.mem_map_of_mem hd.mem)
  · rw [deliveries_other entries moment (hd.own ▸ hid)] at hsome
    exact h.known hsome

/-- A message is delivered, and others may have become dead letters before. -/
theorem Lives.deliver (h : Lives v R entries c)
    (hd : Delivers c m d receipt moment rest kept spent) :
    Lives v R (entries ++ [.received (some d) moment])
      ⟨{ c.transport with
          messages := kept
          deadLetters := c.transport.deadLetters ++ spent }, moment⟩ := by
  have hsame : accepted (entries ++ [.received (some d) moment]) = accepted entries := by
    rw [accepted_append]
    exact List.append_nil _
  have hpaced := h.paced_received hd.mem hd.own hd.number hd.allowed hd.visible
  exact {
    visibility := h.visibility
    limit := h.limit
    distinct := by
      rw [hsame]
      exact h.distinct
    whole := h.whole_delivered hd
    ordered := by
      rw [hsame]
      exact hd.order.trans h.ordered
    known := by
      rw [hsame]
      exact h.known_delivered hd
    numbered := fun id => (hpaced id).numbered
    counted := h.counted_delivered hd
    limited := fun id => (hpaced id).limited
    spent := h.spent_delivered hd
    spaced := fun id => (hpaced id).spaced
    hidden := h.hidden_delivered hd }

end delivery

/-- What was queued and is not any more: the message that was taken out. -/
theorem filter_taken {l l' : List Uuid} (hnodup : l.Nodup) (hperm : l.Perm (id :: l')) :
    l.filter (fun i => i ∉ l') = [id] := by
  have hid : id ∉ l' := (List.nodup_cons.mp (hperm.nodup_iff.mp hnodup)).1
  have hrest : l'.filter (fun i => i ∉ l') = [] := by
    rw [List.filter_eq_nil_iff]
    intro i hi
    simpa using hi
  have hfilter : (l.filter fun i => i ∉ l').Perm [id] := by
    have hpermf := hperm.filter fun i => i ∉ l'
    rwa [List.filter_cons_of_pos (by simpa using hid), hrest] at hpermf
  exact List.perm_singleton.mp hfilter

/-- **One use** of the transport. -/
theorem Lives.step (h : Lives v R entries c) (ht : use.Took c entry c')
    (hnew : ∀ {id m}, use = .send id m → id ∉ accepted entries) :
    Lives v R (entries ++ [entry]) c' := by
  cases ht with
  | @accepted id m => exact h.accept (hnew rfl) m
  | @received receipt waitMs moment found t' hlater hreceives =>
    cases hreceives with
    | @nothing kept spent hspent hmessages horder =>
      have hids : c.transport.queued.Perm (kept.map (·.id) ++ spent.map (·.id)) := by
        rw [← List.map_append]
        exact hmessages.map _
      refine h.moved rfl (fun id => rfl) rfl rfl ?_ ?_ horder ?_
      · exact fun m hm => hmessages.mem_iff.mpr (List.mem_append_left _ hm)
      · intro m hm
        rcases List.mem_append.mp hm with hm | hm
        · exact Or.inl hm
        · exact Or.inr ⟨hmessages.mem_iff.mpr (List.mem_append_right _ hm), hspent m hm⟩
      · show (c.transport.queued ++ c.transport.dead).Perm
          (kept.map (·.id) ++ (c.transport.deadLetters ++ spent).map (·.id) ++ [])
        rw [List.append_nil, List.map_append]
        exact perm_retired hids
    | delivery hvisible hcount hspent hmessages hkept horder =>
      exact h.deliver ⟨rfl, rfl, hvisible, hcount, hspent, hmessages, hkept, horder⟩
  | @deleted receipt m kept hmessages horder =>
    have hids : c.transport.queued.Perm (m.id :: kept.map (·.id)) := hmessages.map _
    rw [filter_taken h.queued_nodup hids]
    refine h.moved rfl (fun id => rfl) rfl rfl (fun m hm => horder.subset hm)
      (fun m hm => Or.inl hm) (horder.map _) ?_
    show (c.transport.queued ++ c.transport.dead).Perm
      (kept.map (·.id) ++ c.transport.dead ++ [m.id])
    exact (hids.append_right _).trans (List.perm_append_singleton _ _).symm
  | failed | setAvailable | pause =>
    refine h.moved rfl (fun id => rfl) rfl rfl (fun m hm => hm) (fun m hm => Or.inl hm)
      (List.Sublist.refl _) ?_
    exact (List.append_nil _).symm ▸ List.Perm.refl _

/-- **A message that has left the queue** has left it for good, and is not
    delivered. -/
theorem Lives.gone (h : Lives v R entries c) (ht : use.Took c entry c')
    (hid : id ∈ c.transport.dead ++ deleted entries) :
    id ∈ c'.transport.dead ++ deleted (entries ++ [entry]) ∧ deliveries id [entry] = [] := by
  have hstays {dead' : List Uuid} (hdead : ∀ i ∈ c.transport.dead, i ∈ dead') :
      id ∈ dead' ++ deleted (entries ++ [entry]) := by
    rw [deleted_append]
    rcases List.mem_append.mp hid with hid | hid
    · exact List.mem_append_left _ (hdead id hid)
    · exact List.mem_append_right _ (List.mem_append_left _ hid)
  cases ht with
  | @received receipt waitMs moment found t' hlater hreceives =>
    cases hreceives with
    | nothing =>
      refine ⟨hstays fun i hi => ?_, rfl⟩
      show i ∈ (c.transport.deadLetters ++ _).map (·.id)
      rw [List.map_append]
      exact List.mem_append_left _ hi
    | @delivery m rest kept spent _ _ _ hmessages =>
      refine ⟨hstays fun i hi => ?_, ?_⟩
      · show i ∈ (c.transport.deadLetters ++ spent).map (·.id)
        rw [List.map_append]
        exact List.mem_append_left _ hi
      · -- What is delivered is in the queue.
        have hmem : m ∈ c.transport.messages := hmessages.mem_iff.mpr List.mem_cons_self
        have hne : m.id ≠ id := by
          rintro rfl
          exact h.not_gone (List.mem_map_of_mem hmem) hid
        rw [deliveries_received]
        exact if_neg hne
  | accepted | deleted | failed | setAvailable | pause => exact ⟨hstays fun i hi => hi, rfl⟩

end lives

/-! ## Whole runs -/

section runs
variable {v R : Nat} {c₀ mid : Station} {before after uses : List Use} {past : List Entry}

theorem runAll_snoc (c : Station) (uses : List Use) (use : Use) :
    runAll c (uses ++ [use]) =
      (runAll c uses).bind fun p => (use.run p.2).map fun q => (p.1 ++ [q.1], q.2) := by
  simp [runAll, List.foldlM_append]

theorem sentIds_append (uses more : List Use) :
    sentIds (uses ++ more) = sentIds uses ++ sentIds more :=
  List.filterMap_append

/-- Only what was sent is accepted. -/
theorem Use.Took.accepted_sublist {c c' : Station} {use : Use} {entry : Entry}
    (h : use.Took c entry c') : (Transport.accepted [entry]).Sublist (sentIds [use]) := by
  cases h with
  | accepted => exact List.Sublist.refl _
  | received | deleted | failed | setAvailable | pause => exact List.nil_sublist _

/-- **A run goes on**, whatever the uses are.  What has left the queue until
    `mid` is not delivered after it. -/
theorem Lives.run (h : Lives v R past mid) (hrun : runAll c₀ before = some (past, mid))
    (hsent : (accepted past).Sublist (sentIds before))
    (hids : (sentIds (before ++ after)).Nodup) :
    ∃ later c, runAll c₀ (before ++ after) = some (past ++ later, c) ∧
      Lives v R (past ++ later) c ∧
      (accepted (past ++ later)).Sublist (sentIds (before ++ after)) ∧
      ∀ id ∈ mid.transport.dead ++ deleted past,
        id ∈ c.transport.dead ++ deleted (past ++ later) ∧ deliveries id later = [] := by
  -- Over the uses after `mid`, the last one first.
  induction after using List.reverseRecOn with
  | nil =>
    refine ⟨[], mid, ?_, ?_, ?_, fun id hid => ⟨?_, rfl⟩⟩
    · rw [List.append_nil, List.append_nil]
      exact hrun
    · rw [List.append_nil]
      exact h
    · rw [List.append_nil, List.append_nil]
      exact hsent
    · rw [List.append_nil]
      exact hid
  | append_singleton rest use ih =>
    rw [← List.append_assoc, sentIds_append] at hids
    obtain ⟨hrest, -, hapart⟩ := List.nodup_append.mp hids
    obtain ⟨later, c, hbefore, hlives, hsub, hgone⟩ := ih hrest
    obtain ⟨entry, c', huse, ht⟩ := use.run_took c
    have hnew {id : Uuid} {m : Message} (hsend : use = .send id m) :
        id ∉ accepted (past ++ later) := by
      subst hsend
      exact fun hold => hapart id (hsub.subset hold) id List.mem_cons_self rfl
    refine ⟨later ++ [entry], c', ?_, ?_, ?_, fun id hid => ?_⟩
    · rw [← List.append_assoc, runAll_snoc, hbefore, Option.bind_some, huse,
        ← List.append_assoc]
      rfl
    · rw [← List.append_assoc]
      exact hlives.step ht hnew
    · rw [← List.append_assoc, ← List.append_assoc, accepted_append, sentIds_append]
      exact hsub.append ht.accepted_sublist
    · obtain ⟨hstill, hnone⟩ := hgone id hid
      obtain ⟨hstays, hlast⟩ := hlives.gone ht hstill
      rw [← List.append_assoc, deliveries_append, hnone, hlast]
      exact ⟨hstays, rfl⟩

/-- **Every run** comes to something, and messages live as they should. -/
theorem exists_runAll (visibilityMs maxReceives : Nat) (hids : (sentIds uses).Nodup) :
    ∃ entries c, runAll (.unused visibilityMs maxReceives) uses = some (entries, c) ∧
      Lives (min visibilityMs maxVisibilityMs) (max maxReceives 1) entries c ∧
      (accepted entries).Sublist (sentIds uses) := by
  have hbegin : runAll (.unused visibilityMs maxReceives) [] =
      some ([], .unused visibilityMs maxReceives) := rfl
  have hall : (sentIds ([] ++ uses)).Nodup := hids
  obtain ⟨entries, c, hrun, hlives, hsent, -⟩ :=
    (lives_unused visibilityMs maxReceives).run hbegin (List.Sublist.refl _) hall
  exact ⟨entries, c, hrun, hlives, hsent⟩

/-- **The life of a message.**  Under any sequence of uses, in which no id is
    used twice for sending:

    * each accepted message is in the queue, with the dead letters or deleted,
      and the queue keeps the order in which they were sent;
    * a message is delivered at most as often as allowed, its receive count is
      the number of its deliveries, and a dead letter was delivered as often as
      allowed;
    * between two deliveries of a message the visibility timeout passes;
    * once it is deleted or with the dead letters it is not delivered again;
    * while the transport is down every call fails and does nothing. -/
theorem messages_leave_once {visibilityMs maxReceives : Nat} (hids : (sentIds uses).Nodup) :
    ∃ entries c, runAll (.unused visibilityMs maxReceives) uses = some (entries, c) ∧
      Lives (min visibilityMs maxVisibilityMs) (max maxReceives 1) entries c ∧
      (∀ {before after}, uses = before ++ after →
        ∃ past mid later, runAll (.unused visibilityMs maxReceives) before = some (past, mid) ∧
          entries = past ++ later ∧
          ∀ id ∈ mid.transport.dead ++ deleted past, deliveries id later = []) ∧
      ∀ use : Use, use.IsCall → c.transport.available = false →
        use.run c = some (.failed offline, c) := by
  obtain ⟨entries, c, hrun, hlives, -⟩ := exists_runAll visibilityMs maxReceives hids
  refine ⟨entries, c, hrun, hlives, ?_, fun use => Use.run_of_down⟩
  rintro before after rfl
  have hids' := hids
  rw [sentIds_append] at hids'
  obtain ⟨past, mid, hpast, hmid, hsent⟩ :=
    exists_runAll visibilityMs maxReceives (List.nodup_append.mp hids').1
  obtain ⟨later, c', hwhole, -, -, hgone⟩ := hmid.run hpast hsent hids
  rw [hrun, Option.some.injEq] at hwhole
  exact ⟨past, mid, later, hpast, (Prod.mk.inj hwhole).1, fun id hid => (hgone id hid).2⟩

end runs

/-! ## A message that is never acknowledged -/

/-- With a timeout of ten milliseconds and two deliveries a message: the first
    message is not acknowledged and becomes a dead letter, the second one is
    deleted, and the third one comes while the transport is down. -/
def neverAcknowledged : List Use := [
  .send (.ofNat 1) ⟨"first", []⟩,
  .send (.ofNat 2) ⟨"second", []⟩,
  .receive (.ofNat 3) 0,
  .receive (.ofNat 4) 0,
  .acknowledge (toString (Uuid.ofNat 4)),
  .receive (.ofNat 5) 50,
  .pause 15,
  .receive (.ofNat 6) 1,
  .setAvailable false,
  .send (.ofNat 7) ⟨"third", []⟩]

/-- What that comes to. -/
def neverAcknowledgedEntries : List Entry := [
  .accepted (.ofNat 1),
  .accepted (.ofNat 2),
  .received (some ⟨.ofNat 1, .ofNat 3, ⟨"first", []⟩, 1⟩) 0,
  .received (some ⟨.ofNat 2, .ofNat 4, ⟨"second", []⟩, 1⟩) 0,
  .deleted [.ofNat 2],
  .received (some ⟨.ofNat 1, .ofNat 5, ⟨"first", []⟩, 2⟩) 10,
  .outside,
  .received none 26,
  .outside,
  .failed offline]

theorem messages_leave_once_never_acknowledged :
    (sentIds neverAcknowledged).Nodup ∧
      ∃ c, runAll (.unused 10 2) neverAcknowledged = some (neverAcknowledgedEntries, c) ∧
        c.transport.queued = [] ∧ c.transport.dead = [.ofNat 1] ∧
        Lives 10 2 neverAcknowledgedEntries c := by
  have hids : (sentIds neverAcknowledged).Nodup := by decide
  have hentries : (runAll (.unused 10 2) neverAcknowledged).map Prod.fst =
      some neverAcknowledgedEntries := rfl
  have hplaces : (runAll (.unused 10 2) neverAcknowledged).map
      (fun p => (p.2.transport.queued, p.2.transport.dead)) = some ([], [.ofNat 1]) := rfl
  obtain ⟨entries, c, hrun, hlives, -, -⟩ := messages_leave_once hids
  rw [hrun, Option.map_some, Option.some.injEq] at hentries hplaces
  obtain ⟨hqueued, hdead⟩ := Prod.mk.inj hplaces
  subst hentries
  exact ⟨hids, c, hrun, hqueued, hdead, hlives⟩

end OrderFlow.Transport
