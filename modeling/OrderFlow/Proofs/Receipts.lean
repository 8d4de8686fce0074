import Mathlib.Data.List.Nodup
import OrderFlow.Proofs.Lifecycle
import OrderFlow.Proofs.Uuid

/-! # Receipts

    Every delivery has a receipt of its own, and a message in the queue
    carries the one of its last delivery (`Fresh`).  So a receipt names at
    most one message, and it is of no use any more once the message has been
    delivered again or has left the queue: acknowledging it deletes nothing. -/

namespace OrderFlow

theorem HeldMessage.isHeldBy_iff {m : HeldMessage} {text : String} :
    m.isHeldBy text = true ↔ m.receipt.map toString = some text := by
  unfold HeldMessage.isHeldBy
  cases m.receipt <;> simp

namespace Transport

/-! ## What was delivered -/

/-- The receipts under which messages are received. -/
def receipts (uses : List Use) : List Uuid :=
  uses.filterMap fun
    | .receive receipt _ => some receipt
    | _ => none

/-- All deliveries, and when they were made. -/
def delivered (entries : List Entry) : List (Delivery × Nat) :=
  entries.filterMap fun
    | .received (some d) moment => some (d, moment)
    | _ => none

/-- The receipt of the last delivery of a message. -/
def newest (id : Uuid) (entries : List Entry) : Option Uuid :=
  (deliveries id entries).getLast?.map (·.1.receipt)

section deliveries
variable {id id' receipt : Uuid} {d : Delivery} {entry : Entry} {entries : List Entry}

theorem deliveries_eq_filter (id : Uuid) (entries : List Entry) :
    deliveries id entries = (delivered entries).filter fun x => x.1.id = id := by
  unfold deliveries delivered
  rw [List.filter_filterMap]
  congr 1
  funext entry
  cases entry with
  | received found moment =>
    cases found with
    | none => rfl
    | some d => by_cases hid : d.id = id <;> simp [hid, Option.filter_some]
  | accepted | deleted | failed | outside => rfl

theorem delivered_append (entries more : List Entry) :
    delivered (entries ++ more) = delivered entries ++ delivered more :=
  List.filterMap_append

/-- One more delivery makes its receipt the newest one of its message. -/
theorem newest_own (entries : List Entry) (d : Delivery) (moment : Nat) :
    newest d.id (entries ++ [.received (some d) moment]) = some d.receipt := by
  unfold newest
  rw [deliveries_own, List.getLast?_concat]
  rfl

/-- The newest receipt of a message that is not delivered stays what it is. -/
theorem newest_kept (h : deliveries id [entry] = []) :
    newest id (entries ++ [entry]) = newest id entries := by
  unfold newest
  rw [deliveries_append, h, List.append_nil]

theorem newest_eq_some (h : newest id entries = some receipt) :
    ∃ x, (deliveries id entries).getLast? = some x ∧ x ∈ delivered entries ∧ x.1.id = id ∧
      x.1.receipt = receipt := by
  obtain ⟨x, hlast, hreceipt⟩ := Option.map_eq_some_iff.mp h
  have hmem : x ∈ deliveries id entries := List.mem_of_getLast? hlast
  rw [deliveries_eq_filter, List.mem_filter] at hmem
  exact ⟨x, hlast, hmem.1, of_decide_eq_true hmem.2, hreceipt⟩

/-- No two deliveries have the same receipt. -/
theorem delivered_inj (hdistinct : ((delivered entries).map (·.1.receipt)).Nodup)
    {x y : Delivery × Nat} (hx : x ∈ delivered entries) (hy : y ∈ delivered entries)
    (heq : x.1.receipt = y.1.receipt) : x = y :=
  List.inj_on_of_nodup_map hdistinct hx hy heq

end deliveries

/-! ## The receipt of a queued message -/

section steps
variable {v R : Nat} {c c' : Station} {use : Use} {uses : List Use} {entry : Entry}
  {entries : List Entry}

/-- **The messages in the queue** carry their newest receipts. -/
def Fresh (entries : List Entry) (c : Station) : Prop :=
  ∀ m ∈ c.transport.messages, m.receipt = newest m.id entries

/-- A step that delivers nothing and puts nothing into the queue. -/
theorem Fresh.kept (h : Fresh entries c) (hnone : ∀ id, deliveries id [entry] = [])
    (hmessages : ∀ m ∈ c'.transport.messages, m ∈ c.transport.messages) :
    Fresh (entries ++ [entry]) c' := by
  intro m hm
  rw [newest_kept (hnone m.id)]
  exact h m (hmessages m hm)

/-- **One use** of the transport. -/
theorem Fresh.step (h : Fresh entries c) (hlives : Lives v R entries c)
    (ht : use.Took c entry c') (hnew : ∀ {id m}, use = .send id m → id ∉ accepted entries) :
    Fresh (entries ++ [entry]) c' := by
  cases ht with
  | @accepted id m =>
    intro m' hm'
    rw [newest_kept rfl]
    rcases List.mem_append.mp hm' with hold | hlast
    · exact h m' hold
    · -- A message that was not accepted before was not delivered either.
      have hundelivered : deliveries id entries = [] :=
        Classical.byContradiction fun hsome => hnew rfl (hlives.known hsome)
      rw [List.mem_singleton.mp hlast]
      show none = newest id entries
      unfold newest
      rw [hundelivered]
      rfl
  | @received receipt waitMs moment found t' hlater hreceives =>
    cases hreceives with
    | nothing hspent hmessages horder =>
      apply h.kept (fun id => rfl)
      intro m hm
      exact hmessages.mem_iff.mpr (List.mem_append_left _ hm)
    | @delivery m rest kept spent hvisible hcount hspent hmessages hkept horder =>
      intro m' hm'
      rcases List.mem_cons.mp (hkept.mem_iff.mp hm') with rfl | hrest
      · exact (newest_own entries ⟨m.id, receipt, m.message, m.receiveCount + 1⟩ moment).symm
      · obtain ⟨hin, hne⟩ := (hlives.others hmessages).1 m' (List.mem_append_left _ hrest)
        rw [newest_kept]
        · exact h m' hin
        · rw [deliveries_received]
          exact if_neg (Ne.symm hne)
  | deleted hmessages horder => exact h.kept (fun id => rfl) fun m hm => horder.subset hm
  | failed | setAvailable | pause => exact h.kept (fun id => rfl) fun m hm => hm

/-- What a use delivers has the receipt that it was made with. -/
theorem Use.Took.delivered_sublist (ht : use.Took c entry c') :
    ((delivered [entry]).map (·.1.receipt)).Sublist (receipts [use]) := by
  cases ht with
  | received hlater hreceives =>
    cases hreceives with
    | nothing => exact List.nil_sublist _
    | delivery => exact List.Sublist.refl _
  | accepted | deleted | failed | setAvailable | pause => exact List.nil_sublist _

/-- **Every run** leaves the newest receipts in the queue, and delivers under
    receipts that it was given. -/
theorem exists_runAll_fresh (visibilityMs maxReceives : Nat) (hids : (sentIds uses).Nodup) :
    ∃ entries c, runAll (.unused visibilityMs maxReceives) uses = some (entries, c) ∧
      Fresh entries c ∧ ((delivered entries).map (·.1.receipt)).Sublist (receipts uses) := by
  -- Over the uses, the last one first.
  induction uses using List.reverseRecOn with
  | nil =>
    refine ⟨[], _, rfl, ?_, List.Sublist.refl _⟩
    intro m hm
    cases hm
  | append_singleton rest use ih =>
    rw [sentIds_append] at hids
    obtain ⟨hrest, -, hapart⟩ := List.nodup_append.mp hids
    obtain ⟨entries, c, hrun, hfresh, hdelivered⟩ := ih hrest
    obtain ⟨entries', c', hrun', hlives, hsent⟩ := exists_runAll visibilityMs maxReceives hrest
    rw [hrun, Option.some.injEq] at hrun'
    cases hrun'
    obtain ⟨entry, c', huse, ht⟩ := use.run_took c
    have hnew {id : Uuid} {m : Message} (hsend : use = .send id m) : id ∉ accepted entries := by
      subst hsend
      exact fun hold => hapart id (hsent.subset hold) id List.mem_cons_self rfl
    refine ⟨entries ++ [entry], c', ?_, hfresh.step hlives ht hnew, ?_⟩
    · rw [runAll_snoc, hrun, Option.bind_some, huse]
      rfl
    · have hreceipts : receipts (rest ++ [use]) = receipts rest ++ receipts [use] :=
        List.filterMap_append
      rw [hreceipts, delivered_append, List.map_append]
      exact hdelivered.append ht.delivered_sublist

end steps

/-! ## Acknowledging -/

section acknowledge
variable {v R : Nat} {t : Transport} {c : Station} {uses : List Use} {entries : List Entry}
  {before after : List HeldMessage} {m : HeldMessage} {text : String}

theorem acknowledge_of_available (havailable : t.available = true) :
    acknowledge text t = if t.messages.any (·.isHeldBy text) then
      some (.ok (), { t with messages := t.messages.eraseP (·.isHeldBy text) })
    else some (.error (.unknownReceipt text), t) :=
  if_pos havailable

/-- The first message that is held by the receipt is deleted. -/
theorem acknowledge_of_held (havailable : t.available = true)
    (hmessages : t.messages = before ++ m :: after) (hheld : m.isHeldBy text = true)
    (hbefore : ∀ x ∈ before, ¬ x.isHeldBy text = true) :
    acknowledge text t = some (.ok (), { t with messages := before ++ after }) := by
  have hany : t.messages.any (·.isHeldBy text) = true := by
    rw [hmessages]
    exact List.any_eq_true.mpr ⟨m, List.mem_append_right _ List.mem_cons_self, hheld⟩
  have hfirst : (m :: after).eraseP (·.isHeldBy text) = after := by
    simp only [List.eraseP_cons, hheld, cond_true]
  have herase : t.messages.eraseP (·.isHeldBy text) = before ++ after := by
    rw [hmessages, List.eraseP_append_right _ hbefore, hfirst]
  rw [acknowledge_of_available havailable, if_pos hany, herase]

/-- A receipt that holds no message deletes none. -/
theorem acknowledge_of_not_held (havailable : t.available = true)
    (hnone : ∀ m ∈ t.messages, ¬ m.isHeldBy text = true) :
    acknowledge text t = some (.error (.unknownReceipt text), t) := by
  have hany : ¬ t.messages.any (·.isHeldBy text) = true := by
    intro hany
    obtain ⟨m, hm, hheld⟩ := List.any_eq_true.mp hany
    exact hnone m hm hheld
  rw [acknowledge_of_available havailable, if_neg hany]

/-- A queued message is held by its newest receipt and by no other text. -/
theorem Fresh.isHeldBy_iff (h : Fresh entries c) (hm : m ∈ c.transport.messages) :
    m.isHeldBy text = true ↔ (newest m.id entries).map toString = some text := by
  rw [HeldMessage.isHeldBy_iff, h m hm]

/-- **A newest receipt** is the newest one of one message only. -/
theorem eq_of_newest (hdistinct : ((delivered entries).map (·.1.receipt)).Nodup) {id id' : Uuid}
    (h : (newest id entries).map toString = some text)
    (h' : (newest id' entries).map toString = some text) : id = id' := by
  obtain ⟨receipt, hnewest, htext⟩ := Option.map_eq_some_iff.mp h
  obtain ⟨receipt', hnewest', htext'⟩ := Option.map_eq_some_iff.mp h'
  have hreceipt : receipt = receipt' := Uuid.toString_inj (htext.trans htext'.symm)
  obtain ⟨x, -, hx, hid, hxreceipt⟩ := newest_eq_some hnewest
  obtain ⟨y, -, hy, hid', hyreceipt⟩ := newest_eq_some hnewest'
  have hxy : x = y := by
    apply delivered_inj hdistinct hx hy
    rw [hxreceipt, hyreceipt, hreceipt]
  rw [← hid, ← hid', hxy]

/-- **The receipt of a delivery** is the newest one of no queued message, when
    its message was delivered again or has left the queue. -/
theorem not_newest (hdistinct : ((delivered entries).map (·.1.receipt)).Nodup) {id : Uuid}
    {x : Delivery × Nat} (hx : x ∈ deliveries id entries)
    (hold : id ∉ c.transport.queued ∨ (deliveries id entries).getLast? ≠ some x) :
    ∀ m ∈ c.transport.messages,
      (newest m.id entries).map toString ≠ some (toString x.1.receipt) := by
  intro m hm hnewest
  obtain ⟨receipt, hreceipt, htext⟩ := Option.map_eq_some_iff.mp hnewest
  obtain ⟨y, hlast, hy, hid, hyreceipt⟩ := newest_eq_some hreceipt
  rw [deliveries_eq_filter, List.mem_filter] at hx
  have hxid : x.1.id = id := of_decide_eq_true hx.2
  have hyx : y = x := by
    apply delivered_inj hdistinct hy hx.1
    rw [hyreceipt]
    exact Uuid.toString_inj htext
  have hsame : m.id = id := by rw [← hid, hyx, hxid]
  rcases hold with hgone | hsuperseded
  · apply hgone
    rw [← hsame]
    exact List.mem_map_of_mem hm
  · apply hsuperseded
    rw [← hsame, hlast, hyx]

/-- **Only the newest receipt deletes.**  Under any sequence of uses, in which
    no id is used twice for sending and no receipt twice for receiving, and
    whatever the stopwatch shows:

    * the receipt of the last delivery of a message in the queue deletes this
      message and leaves the others as they are, in their order;
    * any other text is refused as an unknown receipt, and nothing changes;
    * so are the receipts of all deliveries of a message that is not in the
      queue any more, and of those that were followed by another one. -/
theorem newest_receipt_deletes {visibilityMs maxReceives : Nat} (hids : (sentIds uses).Nodup)
    (hreceipts : (receipts uses).Nodup) :
    ∃ entries c, runAll (.unused visibilityMs maxReceives) uses = some (entries, c) ∧
      (c.transport.available = true →
        (∀ text before m after, c.transport.messages = before ++ m :: after →
          (newest m.id entries).map toString = some text →
          acknowledge text c.transport =
            some (.ok (), { c.transport with messages := before ++ after })) ∧
        (∀ text, (∀ m ∈ c.transport.messages, (newest m.id entries).map toString ≠ some text) →
          acknowledge text c.transport = some (.error (.unknownReceipt text), c.transport)) ∧
        ∀ id, ∀ x ∈ deliveries id entries,
          id ∉ c.transport.queued ∨ (deliveries id entries).getLast? ≠ some x →
          acknowledge (toString x.1.receipt) c.transport =
            some (.error (.unknownReceipt (toString x.1.receipt)), c.transport)) := by
  obtain ⟨entries, c, hrun, hlives, -⟩ := exists_runAll visibilityMs maxReceives hids
  obtain ⟨entries', c', hrun', hfresh, hdelivered⟩ :=
    exists_runAll_fresh visibilityMs maxReceives hids
  rw [hrun, Option.some.injEq] at hrun'
  cases hrun'
  have hdistinct := hdelivered.nodup hreceipts
  refine ⟨entries, c, hrun, fun havailable => ?_⟩
  have hrefused (text : String)
      (hnone : ∀ m ∈ c.transport.messages, (newest m.id entries).map toString ≠ some text) :
      acknowledge text c.transport = some (.error (.unknownReceipt text), c.transport) := by
    apply acknowledge_of_not_held havailable
    intro m hm hheld
    exact hnone m hm ((hfresh.isHeldBy_iff hm).mp hheld)
  refine ⟨?_, hrefused, ?_⟩
  · intro text before m after hmessages hnewest
    have hm : m ∈ c.transport.messages :=
      hmessages ▸ List.mem_append_right _ List.mem_cons_self
    apply acknowledge_of_held havailable hmessages ((hfresh.isHeldBy_iff hm).mpr hnewest)
    -- What stands before it has another id, and so another newest receipt.
    intro x hx hheld
    have hin : x ∈ c.transport.messages := hmessages ▸ List.mem_append_left _ hx
    have hid : x.id = m.id := eq_of_newest hdistinct ((hfresh.isHeldBy_iff hin).mp hheld) hnewest
    have hnodup := hlives.queued_nodup
    unfold queued at hnodup
    rw [hmessages, List.map_append, List.map_cons] at hnodup
    exact (List.nodup_append.mp hnodup).2.2 x.id (List.mem_map_of_mem hx) m.id
      List.mem_cons_self hid
  · intro id x hx hold
    exact hrefused _ (not_newest hdistinct hx hold)

/-- With a timeout of ten milliseconds and two deliveries a message: both
    messages are delivered twice.  The first one has become a dead letter, and
    the timeout of the second one is over. -/
def deliveredTwice : List Use := [
  .send (.ofNat 1) ⟨"first", []⟩,
  .send (.ofNat 2) ⟨"second", []⟩,
  .receive (.ofNat 3) 0,
  .pause 10,
  .receive (.ofNat 4) 0,
  .receive (.ofNat 5) 0,
  .pause 10,
  .receive (.ofNat 6) 0,
  .pause 10]

/-- What that comes to. -/
def deliveredTwiceEntries : List Entry := [
  .accepted (.ofNat 1),
  .accepted (.ofNat 2),
  .received (some ⟨.ofNat 1, .ofNat 3, ⟨"first", []⟩, 1⟩) 0,
  .outside,
  .received (some ⟨.ofNat 1, .ofNat 4, ⟨"first", []⟩, 2⟩) 10,
  .received (some ⟨.ofNat 2, .ofNat 5, ⟨"second", []⟩, 1⟩) 10,
  .outside,
  .received (some ⟨.ofNat 2, .ofNat 6, ⟨"second", []⟩, 2⟩) 20,
  .outside]

theorem newest_receipt_deletes_delivered_twice :
    (sentIds deliveredTwice).Nodup ∧ (receipts deliveredTwice).Nodup ∧
      ∃ c, runAll (.unused 10 2) deliveredTwice = some (deliveredTwiceEntries, c) ∧
        c.transport.available = true ∧ c.now = 30 ∧
        acknowledge (toString (Uuid.ofNat 6)) c.transport =
          some (.ok (), { c.transport with messages := [] }) ∧
        ∀ n ∈ [3, 4, 5], acknowledge (toString (Uuid.ofNat n)) c.transport =
          some (.error (.unknownReceipt (toString (Uuid.ofNat n))), c.transport) := by
  have hids : (sentIds deliveredTwice).Nodup := by decide
  have hreceipts : (receipts deliveredTwice).Nodup := by decide
  have hentries : (runAll (.unused 10 2) deliveredTwice).map Prod.fst =
      some deliveredTwiceEntries := rfl
  have hplaces : (runAll (.unused 10 2) deliveredTwice).map
      (fun p => (p.2.transport.available, p.2.now, p.2.transport.messages)) =
        some (true, 30, [⟨.ofNat 2, ⟨"second", []⟩, 2, some 30, some (.ofNat 6)⟩]) := rfl
  obtain ⟨entries, c, hrun, hdeletes⟩ := newest_receipt_deletes hids hreceipts
  rw [hrun, Option.map_some, Option.some.injEq] at hentries hplaces
  obtain ⟨havailable, hnow, hmessages⟩ := by simpa only [Prod.mk.injEq] using hplaces
  subst hentries
  obtain ⟨hnewest, -, hothers⟩ := hdeletes havailable
  have hgone : Uuid.ofNat 1 ∉ c.transport.queued := by
    unfold queued
    rw [hmessages]
    decide
  refine ⟨hids, hreceipts, c, hrun, havailable, hnow, hnewest _ [] _ [] hmessages rfl, ?_⟩
  intro n hn
  obtain rfl | rfl | rfl : n = 3 ∨ n = 4 ∨ n = 5 := by simpa using hn
  · exact hothers (.ofNat 1) (⟨.ofNat 1, .ofNat 3, ⟨"first", []⟩, 1⟩, 0) (by decide) (.inl hgone)
  · exact hothers (.ofNat 1) (⟨.ofNat 1, .ofNat 4, ⟨"first", []⟩, 2⟩, 10) (by decide) (.inl hgone)
  · exact hothers (.ofNat 2) (⟨.ofNat 2, .ofNat 5, ⟨"second", []⟩, 1⟩, 10) (by decide)
      (.inr (by decide))

end acknowledge

end Transport

end OrderFlow
