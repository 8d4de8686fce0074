import Mathlib.Data.List.TakeDrop
import Mathlib.Data.List.TakeWhile
import OrderFlow.Proofs.Transport

/-! # Waiting for a message

    A receive looks for a message, sleeps until something can have changed
    and looks again, until it finds one or its time is over.  It must not
    oversleep the moment at which a message becomes visible, it must go on
    when it was woken by a message that has been delivered too often, and a
    message that becomes visible at the very end is still delivered.

    `await` is that loop as two nested loops, and a receive is the same
    (`lookAt_wakeUps`).  What has happened by the time of a look is
    `Waited`: one lemma for the look that finds nothing and one for each way
    in which the receive ends; `EndsEarliest` is what it comes to. -/

namespace OrderFlow

/-- A message that is visible stays visible. -/
theorem HeldMessage.isVisible_mono {m : HeldMessage} {u v : Nat} (huv : u ≤ v)
    (h : m.isVisible u = true) : m.isVisible v = true := by
  unfold isVisible at h ⊢
  cases hhidden : m.hiddenUntil with
  | none => rfl
  | some moment =>
    rw [hhidden] at h
    have hmoment : moment ≤ u := of_decide_eq_true h
    exact decide_eq_true (Nat.le_trans hmoment huv)

/-- A message is hidden until a moment that is yet to come. -/
theorem HeldMessage.isVisible_eq_false_iff {m : HeldMessage} {now : Nat} :
    m.isVisible now = false ↔ ∃ moment, m.hiddenUntil = some moment ∧ now < moment := by
  unfold isVisible
  cases m.hiddenUntil <;> simp

namespace Transport

/-! ## The two loops -/

/-- What stands before the first visible message, and what comes from there on. -/
theorem span_visible {now : Nat} {l before rest : List HeldMessage}
    (h : l.span (fun m => !m.isVisible now) = (before, rest)) :
    l = before ++ rest ∧ (∀ m ∈ before, m.isVisible now = false) ∧
      ∀ m after, rest = m :: after → m.isVisible now = true := by
  rw [List.span_eq_takeWhile_dropWhile, Prod.mk.injEq] at h
  obtain ⟨rfl, rfl⟩ := h
  refine ⟨List.takeWhile_append_dropWhile.symm, ?_, ?_⟩
  · intro m hm
    simpa using List.mem_takeWhile_imp hm
  · intro m after hrest
    have hhead := List.head?_dropWhile_not (fun m : HeldMessage => !m.isVisible now) l
    rw [hrest] at hhead
    simpa using hhead

/-- Takes the first visible message: delivers it, or puts it with the dead
    letters and tries again. -/
def nextVisible (t : Transport) (receipt : Uuid) (now : Nat) : Option Delivery × Transport :=
  match h : t.messages.span fun m => !m.isVisible now with
  | (_, []) => (none, t)
  | (before, m :: after) =>
    if t.maxReceives ≤ m.receiveCount then
      nextVisible { t with
        messages := before ++ after
        deadLetters := t.deadLetters ++ [m] } receipt now
    else
      (some ⟨m.id, receipt, m.message, m.receiveCount + 1⟩,
        { t with messages := before ++ m.deliver receipt (now + t.visibilityMs) :: after })
termination_by t.messages.length
decreasing_by
  rw [(span_visible h).1, List.length_append, List.length_append, List.length_cons]
  omega

/-- The moment at which a receive that has found nothing looks again: when the
    first of the messages becomes visible, or at the end. -/
def wakeAt (t : Transport) (deadline : Nat) : Nat :=
  (t.messages.filterMap (·.hiddenUntil)).foldr min deadline

/-- Looks for a message, and after each look that finds nothing sleeps until
    `wakeAt`, for a millisecond at least. -/
def await (t : Transport) (receipt : Uuid) (now deadline : Nat) :
    (Option Delivery × Nat) × Transport :=
  match t.nextVisible receipt now with
  | (some d, t') => ((some d, now), t')
  | (none, t') =>
    if now < deadline then
      t'.await receipt (max (t'.wakeAt deadline) (now + 1)) deadline
    else
      ((none, now), t')
termination_by deadline - now
decreasing_by omega

/-! ## One look -/

section look
variable {t t' : Transport} {receipt : Uuid} {now : Nat} {l before after : List HeldMessage}
  {m : HeldMessage}

/-- Can the message be delivered at the moment `now`? -/
def Deliverable (t : Transport) (now : Nat) (m : HeldMessage) : Prop :=
  m.isVisible now = true ∧ m.receiveCount < t.maxReceives

theorem lookThrough_congr (hlimit : t'.maxReceives = t.maxReceives)
    (hvisibility : t'.visibilityMs = t.visibilityMs) (l : List HeldMessage) :
    t'.lookThrough receipt now l = t.lookThrough receipt now l := by
  induction l with
  | nil => rfl
  | cons m rest ih => rw [lookThrough, lookThrough, ih, hlimit, hvisibility]

/-- Hidden messages are passed by. -/
theorem lookThrough_append (hhidden : ∀ m ∈ before, m.isVisible now = false) :
    t.lookThrough receipt now (before ++ l) =
      { t.lookThrough receipt now l with
        kept := before ++ (t.lookThrough receipt now l).kept } := by
  induction before with
  | nil => rfl
  | cons m rest ih =>
    have hm : m.isVisible now = false := hhidden m List.mem_cons_self
    rw [List.cons_append, lookThrough, hm, ih fun x hx => hhidden x (List.mem_cons_of_mem m hx)]
    rfl

/-- **One look**, exactly: there is nothing to deliver and all visible messages are
    put with the dead letters, or the first one that can be delivered is and
    only those before it are looked at. -/
theorem lookThrough_exact (t : Transport) (receipt : Uuid) (now : Nat) (l : List HeldMessage) :
    ((∀ m ∈ l, ¬ t.Deliverable now m) ∧
      t.lookThrough receipt now l =
        ⟨none, l.filter fun m => !m.isVisible now, l.filter fun m => m.isVisible now⟩) ∨
    ∃ before m after, l = before ++ m :: after ∧ t.Deliverable now m ∧
      (∀ x ∈ before, ¬ t.Deliverable now x) ∧
      t.lookThrough receipt now l =
        ⟨some ⟨m.id, receipt, m.message, m.receiveCount + 1⟩,
          before.filter (fun x => !x.isVisible now) ++
            m.deliver receipt (now + t.visibilityMs) :: after,
          before.filter fun x => x.isVisible now⟩ := by
  induction l with
  | nil => exact Or.inl ⟨fun m hm => (List.not_mem_nil hm).elim, rfl⟩
  | cons m rest ih =>
    rw [lookThrough]
    -- A message that is not delivered goes before what the rest of the queue gives.
    have hskip (hm : ¬ t.Deliverable now m) (rest' : List HeldMessage)
        (h : ∀ x ∈ rest', ¬ t.Deliverable now x) : ∀ x ∈ m :: rest', ¬ t.Deliverable now x := by
      intro x hx
      rcases List.mem_cons.mp hx with rfl | hx
      · exact hm
      · exact h x hx
    by_cases hvisible : m.isVisible now = true
    · by_cases hlimit : t.maxReceives ≤ m.receiveCount
      · have hm : ¬ t.Deliverable now m := fun h => absurd h.2 (by omega)
        rw [hvisible, Bool.not_true, if_neg Bool.false_ne_true, if_pos hlimit]
        obtain ⟨hnone, hlook⟩ | ⟨before, m', after, rfl, hm', hbefore, hlook⟩ := ih
        · refine Or.inl ⟨hskip hm rest hnone, ?_⟩
          rw [hlook]
          simp [hvisible]
        · refine Or.inr ⟨m :: before, m', after, rfl, hm', hskip hm before hbefore, ?_⟩
          rw [hlook]
          simp [hvisible]
      · rw [hvisible, Bool.not_true, if_neg Bool.false_ne_true, if_neg hlimit]
        exact Or.inr ⟨[], m, rest, rfl, ⟨hvisible, Nat.lt_of_not_le hlimit⟩,
          fun x hx => (List.not_mem_nil hx).elim, rfl⟩
    · have hm : ¬ t.Deliverable now m := fun h => hvisible h.1
      have hhidden : m.isVisible now = false := by simpa using hvisible
      rw [hhidden, Bool.not_false, if_pos rfl]
      obtain ⟨hnone, hlook⟩ | ⟨before, m', after, rfl, hm', hbefore, hlook⟩ := ih
      · refine Or.inl ⟨hskip hm rest hnone, ?_⟩
        rw [hlook]
        simp [hhidden]
      · refine Or.inr ⟨m :: before, m', after, rfl, hm', hskip hm before hbefore, ?_⟩
        rw [hlook]
        simp [hhidden]

theorem deliverNext_eq {found : Option Delivery} {kept spent : List HeldMessage}
    (h : t.lookThrough receipt now t.messages = ⟨found, kept, spent⟩) :
    t.deliverNext receipt now =
      (found, { t with messages := kept, deadLetters := t.deadLetters ++ spent }) := by
  unfold deliverNext
  rw [h]

/-- While all messages are hidden, a look finds nothing and does nothing. -/
theorem deliverNext_of_hidden (hhidden : ∀ m ∈ t.messages, m.isVisible now = false) :
    t.deliverNext receipt now = (none, t) := by
  have hlook : t.lookThrough receipt now t.messages = ⟨none, t.messages, []⟩ := by
    have happend : t.lookThrough receipt now (t.messages ++ []) = _ :=
      lookThrough_append hhidden
    rw [List.append_nil] at happend
    rw [happend]
    show Look.mk none (t.messages ++ []) [] = _
    rw [List.append_nil]
  rw [deliverNext_eq hlook, List.append_nil]

/-- A look that finds nothing leaves the hidden messages in the queue. -/
theorem deliverNext_eq_none (h : t.deliverNext receipt now = (none, t')) :
    (∀ m ∈ t.messages, ¬ t.Deliverable now m) ∧
      t' = { t with
        messages := t.messages.filter fun m => !m.isVisible now
        deadLetters := t.deadLetters ++ t.messages.filter fun m => m.isVisible now } := by
  obtain ⟨hnone, hlook⟩ | ⟨before, m, after, -, -, -, hlook⟩ :=
    t.lookThrough_exact receipt now t.messages
  · rw [deliverNext_eq hlook, Prod.mk.injEq] at h
    exact ⟨hnone, h.2.symm⟩
  · rw [deliverNext_eq hlook, Prod.mk.injEq] at h
    cases h.1

/-- A look that finds something delivers the first message that can be. -/
theorem deliverNext_eq_found {d : Delivery} (h : t.deliverNext receipt now = (some d, t')) :
    ∃ before m after, t.messages = before ++ m :: after ∧ t.Deliverable now m ∧
      (∀ x ∈ before, ¬ t.Deliverable now x) ∧
      d = ⟨m.id, receipt, m.message, m.receiveCount + 1⟩ ∧
      t' = { t with
        messages := before.filter (fun x => !x.isVisible now) ++
          m.deliver receipt (now + t.visibilityMs) :: after
        deadLetters := t.deadLetters ++ before.filter fun x => x.isVisible now } := by
  obtain ⟨-, hlook⟩ | ⟨before, m, after, hmessages, hm, hbefore, hlook⟩ :=
    t.lookThrough_exact receipt now t.messages
  · rw [deliverNext_eq hlook, Prod.mk.injEq] at h
    cases h.1
  · rw [deliverNext_eq hlook, Prod.mk.injEq] at h
    exact ⟨before, m, after, hmessages, hm, hbefore, (Option.some.inj h.1).symm, h.2.symm⟩

/-- **The inner loop** is one look through the queue. -/
theorem nextVisible_eq_deliverNext (t : Transport) (receipt : Uuid) (now : Nat) :
    t.nextVisible receipt now = t.deliverNext receipt now := by
  fun_induction nextVisible t receipt now with
  | case1 t before h =>
    obtain ⟨hmessages, hhidden, -⟩ := span_visible h
    rw [List.append_nil] at hmessages
    rw [deliverNext_of_hidden (hmessages ▸ hhidden)]
  | case2 t before m after h hlimit ih =>
    obtain ⟨hmessages, hhidden, hvisible⟩ := span_visible h
    rw [ih]
    have hsame (l : List HeldMessage) :
        { t with
          messages := before ++ after
          deadLetters := t.deadLetters ++ [m] : Transport }.lookThrough receipt now l =
            t.lookThrough receipt now l := by
      apply lookThrough_congr
      · rfl
      · rfl
    have hpast : t.lookThrough receipt now (m :: after) =
        { t.lookThrough receipt now after with
          exhausted := m :: (t.lookThrough receipt now after).exhausted } := by
      rw [lookThrough, hvisible m after rfl, Bool.not_true, if_neg Bool.false_ne_true,
        if_pos hlimit]
    have hwhole : t.lookThrough receipt now t.messages = _ :=
      hmessages ▸ lookThrough_append (l := m :: after) hhidden
    rw [deliverNext_eq ((hsame _).trans (lookThrough_append hhidden)), deliverNext_eq hwhole, hpast]
    simp
  | case3 t before m after h hlimit =>
    obtain ⟨hmessages, hhidden, hvisible⟩ := span_visible h
    have hwhole : t.lookThrough receipt now t.messages = _ :=
      hmessages ▸ lookThrough_append (l := m :: after) hhidden
    rw [deliverNext_eq hwhole, lookThrough, hvisible m after rfl, Bool.not_true,
      if_neg Bool.false_ne_true, if_neg hlimit, List.append_nil]
    rfl

end look

/-! ## The outer loop -/

section loop
variable {t t' : Transport} {receipt : Uuid} {now deadline moment : Nat} {l : List Nat}

theorem le_foldr_min {k n : Nat} {l : List Nat} :
    k ≤ l.foldr min n ↔ k ≤ n ∧ ∀ m ∈ l, k ≤ m := by
  induction l with
  | nil => simp
  | cons m rest ih =>
    rw [List.foldr_cons, Nat.le_min, ih, List.forall_mem_cons]
    exact and_left_comm

theorem le_wakeAt_iff {k : Nat} :
    k ≤ t.wakeAt deadline ↔
      k ≤ deadline ∧ ∀ m ∈ t.messages, ∀ moment, m.hiddenUntil = some moment → k ≤ moment := by
  unfold wakeAt
  rw [le_foldr_min]
  simp only [List.mem_filterMap, forall_exists_index, and_imp]
  apply and_congr_right
  intro hend
  constructor
  · intro h m hm moment hhidden
    exact h moment m hm hhidden
  · intro h moment m hm hhidden
    exact h m hm moment hhidden

/-- **When to look again**: these are the moments from `now` on at which a hidden
    message becomes visible, in their order, and the end. -/
structure Plan (t : Transport) (now deadline : Nat) (l : List Nat) : Prop where
  sorted : l.Pairwise (· ≤ ·)
  within : ∀ moment ∈ l, now ≤ moment ∧ moment ≤ deadline
  mem_iff : ∀ moment, now < moment → (moment ∈ l ↔ moment = deadline ∨
    moment < deadline ∧ ∃ m ∈ t.messages, m.hiddenUntil = some moment)

theorem plan_wakeUps (hdeadline : now ≤ deadline) :
    t.Plan now deadline (t.wakeUps now deadline) := by
  unfold wakeUps
  split
  · next hlater =>
    constructor
    · rw [List.pairwise_append]
      refine ⟨?_, List.pairwise_singleton _ _, ?_⟩
      · exact pairwise_le_sortBy (fun m n => decide_eq_true_iff) _
      · intro moment hmoment last hlast
        rw [sortBy_eq_insertionSort, List.mem_insertionSort, List.mem_filter] at hmoment
        rw [List.mem_singleton.mp hlast]
        exact Nat.le_of_lt (of_decide_eq_true hmoment.2).2
    · intro moment hmoment
      simp only [List.mem_append, sortBy_eq_insertionSort, List.mem_insertionSort,
        List.mem_filter, List.mem_singleton, decide_eq_true_eq] at hmoment
      omega
    · intro moment hmoment
      simp only [List.mem_append, sortBy_eq_insertionSort, List.mem_insertionSort,
        List.mem_filter, List.mem_filterMap, List.mem_singleton, decide_eq_true_eq]
      constructor
      · rintro (⟨⟨m, hm, hhidden⟩, -, hbefore⟩ | hlast)
        · exact Or.inr ⟨hbefore, m, hm, hhidden⟩
        · exact Or.inl hlast
      · rintro (hlast | ⟨hbefore, m, hm, hhidden⟩)
        · exact Or.inr hlast
        · exact Or.inl ⟨⟨m, hm, hhidden⟩, hmoment, hbefore⟩
  · next hlater =>
    refine ⟨List.Pairwise.nil, fun moment hmoment => (List.not_mem_nil hmoment).elim, ?_⟩
    intro moment hmoment
    have hpast : ¬ moment = deadline ∧ ¬ moment < deadline := by omega
    simp [hpast]

/-- A look that finds nothing changes nothing about the moments that are yet to
    come. -/
theorem Plan.look (h : t.Plan now deadline l) (hlook : t.deliverNext receipt now = (none, t')) :
    t'.Plan now deadline l := by
  obtain ⟨-, rfl⟩ := deliverNext_eq_none hlook
  refine ⟨h.sorted, h.within, fun moment hmoment => (h.mem_iff moment hmoment).trans ?_⟩
  have hsame : (∃ m ∈ t.messages, m.hiddenUntil = some moment) ↔
      ∃ m ∈ t.messages.filter fun m => !m.isVisible now, m.hiddenUntil = some moment := by
    constructor
    · intro ⟨m, hm, hhidden⟩
      have hnot : m.isVisible now = false :=
        HeldMessage.isVisible_eq_false_iff.mpr ⟨moment, hhidden, hmoment⟩
      exact ⟨m, List.mem_filter.mpr ⟨hm, by rw [hnot]; rfl⟩, hhidden⟩
    · intro ⟨m, hm, hhidden⟩
      exact ⟨m, (List.mem_filter.mp hm).1, hhidden⟩
  rw [hsame]

/-- What is left of the plan at its first moment. -/
theorem Plan.tail (h : t.Plan now deadline (moment :: l)) : t.Plan moment deadline l := by
  obtain ⟨hfirst, hsorted⟩ := List.pairwise_cons.mp h.sorted
  refine ⟨hsorted, ?_, ?_⟩
  · intro later hlater
    exact ⟨hfirst later hlater, (h.within later (List.mem_cons_of_mem _ hlater)).2⟩
  · intro later hlater
    have hnow : now < later := Nat.lt_of_le_of_lt (h.within moment List.mem_cons_self).1 hlater
    rw [← h.mem_iff later hnow, List.mem_cons]
    simp [Nat.ne_of_gt hlater]

/-- While everything is hidden, the first moment of the plan is the one to wake
    up at. -/
theorem Plan.wakeAt_eq (h : t.Plan now deadline (moment :: l)) (hnow : now < moment)
    (hhidden : ∀ m ∈ t.messages, m.isVisible now = false) : t.wakeAt deadline = moment := by
  obtain ⟨hfirst, -⟩ := List.pairwise_cons.mp h.sorted
  have hleast (later : Nat) (hlater : later ∈ moment :: l) : moment ≤ later := by
    rcases List.mem_cons.mp hlater with rfl | hlater
    · exact Nat.le_refl _
    · exact hfirst later hlater
  have hbound : moment ≤ deadline := (h.within moment List.mem_cons_self).2
  apply Nat.le_antisymm
  · obtain ⟨hend, hall⟩ := le_wakeAt_iff.mp (Nat.le_refl (t.wakeAt deadline))
    rcases (h.mem_iff moment hnow).mp List.mem_cons_self with rfl | ⟨-, m, hm, hshown⟩
    · exact hend
    · exact hall m hm moment hshown
  · apply le_wakeAt_iff.mpr
    refine ⟨hbound, ?_⟩
    intro m hm shown hshown
    obtain ⟨shown', hshown', hlater⟩ := HeldMessage.isVisible_eq_false_iff.mp (hhidden m hm)
    rw [hshown, Option.some.injEq] at hshown'
    subst hshown'
    by_cases hin : shown < deadline
    · exact hleast shown ((h.mem_iff shown hlater).mpr (Or.inr ⟨hin, m, hm, hshown⟩))
    · omega

/-- After a look that finds nothing everything is hidden. -/
theorem hidden_of_deliverNext (h : t.deliverNext receipt now = (none, t')) :
    ∀ m ∈ t'.messages, m.isVisible now = false := by
  obtain ⟨-, rfl⟩ := deliverNext_eq_none h
  intro m hm
  simpa using (List.mem_filter.mp hm).2

/-- **The outer loop** looks at the moments of the plan. -/
theorem Plan.lookAt_eq_await (h : t.Plan now deadline l) (hdeadline : now ≤ deadline) :
    t.lookAt receipt now l = t.await receipt now deadline := by
  -- Over the plan; the transport changes with every look.
  induction l generalizing t now with
  | nil =>
    have hend : ¬ now < deadline := by
      intro hlater
      exact List.not_mem_nil ((h.mem_iff deadline hlater).mpr (Or.inl rfl))
    rw [lookAt, await, nextVisible_eq_deliverNext]
    rcases t.deliverNext receipt now with ⟨_ | d, t'⟩
    · show ((none, now), t') = if now < deadline then _ else _
      rw [if_neg hend]
    · rfl
  | cons moment rest ih =>
    rw [lookAt, await, nextVisible_eq_deliverNext]
    rcases hlook : t.deliverNext receipt now with ⟨_ | d, t'⟩
    · show t'.lookAt receipt moment rest = if now < deadline then
        t'.await receipt (max (t'.wakeAt deadline) (now + 1)) deadline else ((none, now), t')
      have hlater := h.look hlook
      have hhidden := hidden_of_deliverNext hlook
      obtain ⟨hfrom, hbound⟩ := h.within moment List.mem_cons_self
      rw [ih hlater.tail hbound]
      by_cases hsame : moment = now
      · -- The same moment once more: there is nothing new to see.
        subst hsame
        rw [await, nextVisible_eq_deliverNext, deliverNext_of_hidden hhidden]
      · have hwake : t'.wakeAt deadline = moment := hlater.wakeAt_eq (by omega) hhidden
        rw [if_pos (by omega), hwake, Nat.max_eq_left (by omega)]
    · rfl

/-- **A receive** is the two loops. -/
theorem lookAt_wakeUps (hdeadline : now ≤ deadline) :
    t.lookAt receipt now (t.wakeUps now deadline) = t.await receipt now deadline :=
  (plan_wakeUps hdeadline).lookAt_eq_await hdeadline

end loop

/-! ## When a receive ends -/

/-- Was the message delivered as often as allowed, and visible at some moment
    from `start` on and before `now`? -/
def Retires (t : Transport) (start now : Nat) (m : HeldMessage) : Prop :=
  t.maxReceives ≤ m.receiveCount ∧ ∃ u < now, start ≤ u ∧ m.isVisible u = true

instance (t : Transport) (start now : Nat) (m : HeldMessage) : Decidable (t.Retires start now m) :=
  inferInstanceAs (Decidable (_ ∧ _))

/-- **What a receive comes to** that begins at `start` and waits until
    `deadline`.  Messages that were delivered as often as allowed go to the
    dead letters, if they were visible in the meantime; nothing else changes
    but the message that is delivered. -/
inductive EndsEarliest (t : Transport) (receipt : Uuid) (start deadline : Nat) :
    Option Delivery → Nat → Transport → Prop where
  /-- It ends at the first moment at which a message can be delivered, and
      delivers the first one that can.  What stands behind this message is not
      looked at then. -/
  | delivery {moment : Nat} {m : HeldMessage} {before after spent : List HeldMessage}
    (hstart : start ≤ moment) (hdeadline : moment ≤ deadline)
    (hleast : ∀ u, start ≤ u → u < moment → ∀ x ∈ t.messages, ¬ t.Deliverable u x)
    (hmessages : t.messages = before ++ m :: after)
    (hdeliverable : t.Deliverable moment m)
    (hfirst : ∀ x ∈ before, ¬ t.Deliverable moment x)
    (hspent : spent.Perm (before.filter (fun x => t.Retires start (moment + 1) x) ++
      after.filter fun x => t.Retires start moment x)) :
    EndsEarliest t receipt start deadline
      (some ⟨m.id, receipt, m.message, m.receiveCount + 1⟩) moment
      { t with
        messages := before.filter (fun x => ¬ t.Retires start (moment + 1) x) ++
          m.deliver receipt (moment + t.visibilityMs) ::
            after.filter fun x => ¬ t.Retires start moment x
        deadLetters := t.deadLetters ++ spent }
  /-- Nothing can be delivered up to the end. -/
  | nothing {spent : List HeldMessage}
    (hnever : ∀ u, start ≤ u → u ≤ deadline → ∀ x ∈ t.messages, ¬ t.Deliverable u x)
    (hspent : spent.Perm (t.messages.filter fun x => t.Retires start (deadline + 1) x)) :
    EndsEarliest t receipt start deadline none deadline
      { t with
        messages := t.messages.filter fun x => ¬ t.Retires start (deadline + 1) x
        deadLetters := t.deadLetters ++ spent }

/-- **What has happened** before the moment `now` of a receive that goes on: the
    transport `t` has become `t'`. -/
structure Waited (t : Transport) (start : Nat) (t' : Transport) (now : Nat) : Prop where
  begun : start ≤ now
  /-- There was nothing to deliver. -/
  quiet : ∀ u, start ≤ u → u < now → ∀ x ∈ t.messages, ¬ t.Deliverable u x
  changed : ∃ spent, spent.Perm (t.messages.filter fun x => t.Retires start now x) ∧
    t' = { t with
      messages := t.messages.filter fun x => ¬ t.Retires start now x
      deadLetters := t.deadLetters ++ spent }

section wait
variable {t t' t'' : Transport} {receipt : Uuid} {start now next deadline : Nat}
  {m : HeldMessage} {l : List HeldMessage}

theorem Retires.mono (hnext : now ≤ next) (h : t.Retires start now m) :
    t.Retires start next m := by
  obtain ⟨hlimit, u, hu, hstart, hvisible⟩ := h
  exact ⟨hlimit, u, Nat.lt_of_lt_of_le hu hnext, hstart, hvisible⟩

/-- A message retires at the moment `now` if it has been delivered too often and is
    visible, and not before. -/
theorem retires_succ_iff (hstart : start ≤ now) (hm : ¬ t.Deliverable now m) :
    t.Retires start (now + 1) m ↔ t.Retires start now m ∨ m.isVisible now = true := by
  constructor
  · intro ⟨hlimit, u, hu, hfrom, hvisible⟩
    exact Or.inr (HeldMessage.isVisible_mono (Nat.le_of_lt_succ hu) hvisible)
  · intro h
    rcases h with h | hvisible
    · exact h.mono (Nat.le_succ now)
    · have hlimit : t.maxReceives ≤ m.receiveCount :=
        Nat.le_of_not_lt fun hcount => hm ⟨hvisible, hcount⟩
      exact ⟨hlimit, now, Nat.lt_succ_self now, hstart, hvisible⟩

/-- What a look leaves of a part of the queue that has nothing to deliver. -/
theorem filter_hidden (hstart : start ≤ now) (hnone : ∀ m ∈ l, ¬ t.Deliverable now m) :
    (l.filter fun m => ¬ t.Retires start now m).filter (fun m => !m.isVisible now) =
      l.filter fun m => ¬ t.Retires start (now + 1) m := by
  rw [List.filter_filter]
  apply List.filter_congr
  intro m hm
  have hiff := retires_succ_iff hstart (hnone m hm)
  by_cases hvisible : m.isVisible now = true <;> simp [hiff, hvisible]

/-- What a look takes out of it goes to what was taken out before. -/
theorem perm_retired_visible (hstart : start ≤ now) (hnone : ∀ m ∈ l, ¬ t.Deliverable now m) :
    (l.filter (fun m => t.Retires start now m) ++
      (l.filter fun m => ¬ t.Retires start now m).filter fun m => m.isVisible now).Perm
      (l.filter fun m => t.Retires start (now + 1) m) := by
  have hold : (l.filter fun m => t.Retires start (now + 1) m).filter
      (fun m => decide (t.Retires start now m)) = l.filter fun m => t.Retires start now m := by
    rw [List.filter_filter]
    apply List.filter_congr
    intro m hm
    by_cases hretires : t.Retires start now m
    · simp [hretires, hretires.mono (Nat.le_succ now)]
    · simp [hretires]
  have hnew : (l.filter fun m => t.Retires start (now + 1) m).filter
      (fun m => !decide (t.Retires start now m)) =
      (l.filter fun m => ¬ t.Retires start now m).filter fun m => m.isVisible now := by
    rw [List.filter_filter, List.filter_filter]
    apply List.filter_congr
    intro m hm
    have hiff := retires_succ_iff hstart (hnone m hm)
    by_cases hretires : t.Retires start now m <;> simp [hretires, hiff]
  have hparts := List.filter_append_perm (fun m => decide (t.Retires start now m))
    (l.filter fun m => t.Retires start (now + 1) m)
  rwa [hold, hnew] at hparts

/-- What can be delivered has not retired. -/
theorem Deliverable.not_retires {u : Nat} (h : t.Deliverable u m) : ¬ t.Retires start now m :=
  fun hretires => absurd h.2 (Nat.not_lt_of_le hretires.1)

/-- When a receive begins nothing has happened yet. -/
theorem Waited.begin (t : Transport) (start : Nat) : t.Waited start t start := by
  have hnot (m : HeldMessage) : ¬ t.Retires start start m := by
    intro ⟨_, u, hbefore, hstart, _⟩
    omega
  have hall : (t.messages.filter fun m => ¬ t.Retires start start m) = t.messages :=
    List.filter_eq_self.mpr fun m hm => by simpa using hnot m
  refine ⟨Nat.le_refl start, fun u hstart hbefore => by omega, [], ?_, ?_⟩
  · simp [hnot]
  · rw [hall, List.append_nil]

/-- **A look** that finds nothing. -/
theorem Waited.look (h : t.Waited start t' now)
    (hlook : t'.deliverNext receipt now = (none, t'')) : t.Waited start t'' (now + 1) := by
  obtain ⟨spent, hspent, rfl⟩ := h.changed
  obtain ⟨hqueued, rfl⟩ := deliverNext_eq_none hlook
  have hnone : ∀ x ∈ t.messages, ¬ t.Deliverable now x := by
    intro x hx hdeliverable
    exact hqueued x (List.mem_filter.mpr ⟨hx, by simpa using hdeliverable.not_retires⟩) hdeliverable
  refine ⟨Nat.le_succ_of_le h.begun, ?_,
    spent ++ (t.messages.filter fun x => ¬ t.Retires start now x).filter fun x => x.isVisible now,
    ?_, ?_⟩
  · intro u hstart hu
    by_cases hnow : u = now
    · exact hnow ▸ hnone
    · exact h.quiet u hstart (by omega)
  · exact (hspent.append_right _).trans (perm_retired_visible h.begun hnone)
  · rw [← filter_hidden h.begun hnone, ← List.append_assoc]

/-- **Sleeping** while everything is hidden. -/
theorem Waited.sleep (h : t.Waited start t' now) (hnext : now ≤ next)
    (hhidden : ∀ m ∈ t'.messages, ∀ u < next, m.isVisible u = false) :
    t.Waited start t' next := by
  obtain ⟨spent, hspent, rfl⟩ := h.changed
  have hasleep {x : HeldMessage} (hx : x ∈ t.messages) (hnot : ¬ t.Retires start now x) {u : Nat}
      (hu : u < next) : ¬ x.isVisible u = true := by
    rw [hhidden x (List.mem_filter.mpr ⟨hx, by simpa using hnot⟩) u hu]
    exact Bool.false_ne_true
  have hsame {x : HeldMessage} (hx : x ∈ t.messages) :
      t.Retires start next x ↔ t.Retires start now x := by
    constructor
    · intro ⟨hlimit, u, hu, hstart, hvisible⟩
      exact Classical.byContradiction fun hnot => hasleep hx hnot hu hvisible
    · exact Retires.mono hnext
  have hretired : (t.messages.filter fun x => t.Retires start next x) =
      t.messages.filter fun x => t.Retires start now x :=
    List.filter_congr fun x hx => by simp [hsame hx]
  have hkept : (t.messages.filter fun x => ¬ t.Retires start next x) =
      t.messages.filter fun x => ¬ t.Retires start now x :=
    List.filter_congr fun x hx => by simp [hsame hx]
  refine ⟨Nat.le_trans h.begun hnext, ?_, spent, ?_, ?_⟩
  · intro u hstart hu x hx hdeliverable
    exact hasleep hx hdeliverable.not_retires hu hdeliverable.1
  · rwa [hretired]
  · rw [hkept]

/-- **The end** at which a message is found. -/
theorem Waited.found (h : t.Waited start t' now) (hdeadline : now ≤ deadline) {d : Delivery}
    (hlook : t'.deliverNext receipt now = (some d, t'')) :
    t.EndsEarliest receipt start deadline (some d) now t'' := by
  obtain ⟨spent, hspent, rfl⟩ := h.changed
  obtain ⟨shown, m, behind, hqueue, hm, hfirst, rfl, rfl⟩ := deliverNext_eq_found hlook
  -- Where the message stood when the receive began.
  obtain ⟨first, rest, hmessages, hshown, hrest⟩ := List.filter_eq_append_iff.mp hqueue
  obtain ⟨gone, after, rfl, hgone, -, hbehind⟩ := List.filter_eq_cons_iff.mp hrest
  have hwhole : t.messages = (first ++ gone) ++ m :: after := by
    rw [hmessages, List.append_assoc]
  have hbefore : ((first ++ gone).filter fun x => ¬ t.Retires start now x) = shown := by
    rw [List.filter_append, hshown, List.filter_eq_nil_iff.mpr hgone, List.append_nil]
  have hnone : ∀ x ∈ first ++ gone, ¬ t.Deliverable now x := by
    intro x hx hdeliverable
    have hin : x ∈ shown := by
      rw [← hbefore]
      exact List.mem_filter.mpr ⟨hx, by simpa using hdeliverable.not_retires⟩
    exact hfirst x hin hdeliverable
  have hkept := filter_hidden h.begun hnone
  have hretired := perm_retired_visible h.begun hnone
  rw [hbefore] at hkept hretired
  have hmnot : ¬ t.Retires start now m := Deliverable.not_retires (t := t) hm
  rw [hwhole, List.filter_append, List.filter_cons_of_neg (by simpa using hmnot)] at hspent
  rw [← hbehind]
  show t.EndsEarliest receipt start deadline _ now { t with
    messages := shown.filter (fun x => !x.isVisible now) ++
      m.deliver receipt (now + t.visibilityMs) :: after.filter _
    deadLetters := t.deadLetters ++ spent ++ shown.filter fun x => x.isVisible now }
  rw [hkept, List.append_assoc]
  refine .delivery h.begun hdeadline h.quiet hwhole hm hnone ?_
  -- What was taken out before it, at this look too, and what was taken out behind it.
  refine (hspent.append_right _).trans ?_
  rw [List.append_assoc]
  refine (List.perm_append_comm.append_left _).trans ?_
  rw [← List.append_assoc]
  exact hretired.append_right _

/-- **The end** of the time, when nothing is found. -/
theorem Waited.nothing (h : t.Waited start t' deadline)
    (hlook : t'.deliverNext receipt deadline = (none, t'')) :
    t.EndsEarliest receipt start deadline none deadline t'' := by
  have hlast := h.look hlook
  obtain ⟨spent, hspent, rfl⟩ := hlast.changed
  exact .nothing (fun u hstart hu => hlast.quiet u hstart (Nat.lt_succ_of_le hu)) hspent

/-- **The rest of a receive.** -/
theorem Waited.await_ends (h : t.Waited start t' now) (hdeadline : now ≤ deadline) :
    t.EndsEarliest receipt start deadline (t'.await receipt now deadline).1.1
      (t'.await receipt now deadline).1.2 (t'.await receipt now deadline).2 := by
  -- Over the looks; each begins where the last one has left the transport.
  fun_induction await t' receipt now deadline with
  | case1 t' now d t'' hlook =>
    rw [nextVisible_eq_deliverNext] at hlook
    exact h.found hdeadline hlook
  | case2 t' now t'' hlook hlater ih =>
    rw [nextVisible_eq_deliverNext] at hlook
    have hbound : t''.wakeAt deadline ≤ deadline := (le_wakeAt_iff.mp (Nat.le_refl _)).1
    apply ih
    · apply (h.look hlook).sleep (Nat.le_max_right _ _)
      intro m hm u hu
      obtain ⟨moment, hmoment, hhidden⟩ :=
        HeldMessage.isVisible_eq_false_iff.mp (hidden_of_deliverNext hlook m hm)
      have hwake : t''.wakeAt deadline ≤ moment :=
        (le_wakeAt_iff.mp (Nat.le_refl _)).2 m hm moment hmoment
      exact HeldMessage.isVisible_eq_false_iff.mpr ⟨moment, hmoment, by omega⟩
    · omega
  | case3 t' now t'' hlook hlater =>
    rw [nextVisible_eq_deliverNext] at hlook
    obtain rfl : now = deadline := by omega
    exact h.nothing hlook

/-- **A receive ends at the earliest moment** at which it can, with the right
    message, or at the end of its time with none. -/
theorem receive_ends_earliest (havailable : t.available = true) (receipt : Uuid)
    (now waitMs : Nat) :
    ∃ found ended t', receive receipt now waitMs t = some (.ok (found, ended), t') ∧
      t.await receipt now (now + waitMs) = ((found, ended), t') ∧
      t.EndsEarliest receipt now (now + waitMs) found ended t' := by
  have hdeadline : now ≤ now + waitMs := Nat.le_add_right now waitMs
  refine ⟨_, _, _, ?_, rfl, (Waited.begin t now).await_ends hdeadline⟩
  rw [← lookAt_wakeUps hdeadline]
  exact if_pos havailable

/-- Three messages are hidden, of which the first and the last were delivered as
    often as allowed. -/
def hiddenMessages : Transport where
  messages := [
    ⟨.ofNat 1, ⟨"first", []⟩, 2, some 5, some (.ofNat 4)⟩,
    ⟨.ofNat 2, ⟨"second", []⟩, 1, some 20, some (.ofNat 5)⟩,
    ⟨.ofNat 3, ⟨"third", []⟩, 2, some 20, some (.ofNat 6)⟩]
  visibilityMs := 10
  maxReceives := 2

/-- It is woken by a message that is not delivered any more, and delivers
    another one at the very end. -/
theorem receive_ends_earliest_at_the_end :
    hiddenMessages.available = true ∧
      ∃ t', receive (.ofNat 7) 0 20 hiddenMessages =
          some (.ok (some ⟨.ofNat 2, .ofNat 7, ⟨"second", []⟩, 2⟩, 20), t') ∧
        t'.messages.map (·.id) = [.ofNat 2, .ofNat 3] ∧
        t'.deadLetters.map (·.id) = [.ofNat 1] ∧
        hiddenMessages.EndsEarliest (.ofNat 7) 0 20
          (some ⟨.ofNat 2, .ofNat 7, ⟨"second", []⟩, 2⟩) 20 t' := by
  obtain ⟨found, ended, t', hreceive, -, hends⟩ :=
    receive_ends_earliest (t := hiddenMessages) rfl (.ofNat 7) 0 20
  have hanswer : (receive (.ofNat 7) 0 20 hiddenMessages).map Prod.fst =
      some (.ok (some ⟨.ofNat 2, .ofNat 7, ⟨"second", []⟩, 2⟩, 20)) := rfl
  have hplaces : (receive (.ofNat 7) 0 20 hiddenMessages).map
      (fun p => (p.2.messages.map (·.id), p.2.deadLetters.map (·.id))) =
        some ([.ofNat 2, .ofNat 3], [.ofNat 1]) := rfl
  rw [hreceive, Option.map_some, Option.some.injEq] at hanswer hplaces
  cases hanswer
  obtain ⟨hqueued, hdead⟩ := Prod.mk.inj hplaces
  exact ⟨rfl, t', hreceive, hqueued, hdead, hends⟩

end wait

end Transport

end OrderFlow
