import OrderFlow.Proofs.Correlation
import OrderFlow.Proofs.Instant

/-! # Histories of an order

    Anybody may ask for any transition of an order at any moment, with any reason
    and with a clock that need not agree with the one before.  A history is a list
    of such changes.  Those that the status does not allow are refused and leave
    the order as it is.

    What holds of an order at the end of every history is one structure
    (`Lawful`).  Its fields that compare the end with the beginning follow from
    one lemma about a single change each; the reason of a failure depends on the
    status, so the two are followed together (`ReasonFits`). -/

namespace OrderFlow

namespace Order

/-! ## Changes and histories -/

/-- A transition that is asked for, and what the clock says then. -/
structure Change where
  /-- The transition. -/
  step : Transition
  /-- The time on the clock. -/
  now : Instant
  deriving DecidableEq

/-- What is left of the order when the change was asked for. -/
def change (o : Order) (c : Change) : Order :=
  match o.apply c.step c.now with
  | .ok o' => o'
  | .error _ => o

/-- The order at the end of a history. -/
def through (o : Order) (history : List Change) : Order :=
  history.foldl change o

/-- The changes of a history that were granted. -/
def granted (o : Order) : List Change → List Change
  | [] => []
  | c :: rest =>
    match o.apply c.step c.now with
    | .ok o' => c :: o'.granted rest
    | .error _ => o.granted rest

/-- Does the transition count a failed attempt? -/
def countsFailure : Transition → Bool
  | .fail _ | .scheduleRetry _ => true
  | .start | .complete | .reset _ => false

/-- How an order comes into being. -/
inductive Beginning where
  /-- It is accepted. -/
  | fresh (id : OrderId) (now : Instant)
  /-- It was kept elsewhere. -/
  | stored (id : OrderId) (status : Status) (createdAt updatedAt : Instant) (retryCount : Nat)
    (failureReason : Option String)

/-- The order that has come into being. -/
def Beginning.order : Beginning → Order
  | .fresh id now => Order.fresh id now
  | .stored id status createdAt updatedAt retryCount failureReason =>
    ofStored id status createdAt updatedAt retryCount failureReason

/-- **A lawful end** of a history that began with `o`. -/
structure Lawful (o : Order) (history : List Change) : Prop where
  /-- A change is granted from the source of its transition and from nowhere else. -/
  grants : ∀ c : Change, (∃ o', (o.through history).apply c.step c.now = .ok o') ↔
    (o.through history).status = c.step.source
  /-- What is granted leads to the target of its transition. -/
  target : ∀ (c : Change) o', (o.through history).apply c.step c.now = .ok o' →
    o'.status = c.step.target
  /-- What is refused changes nothing, and the refusal says why. -/
  refuses : ∀ c e, (o.through history).apply c.step c.now = .error e →
    (o.through history).change c = o.through history ∧
      e = ⟨o.id, c.step.verb, (o.through history).status⟩
  id : (o.through history).id = o.id
  createdAt : (o.through history).createdAt = o.createdAt
  /-- The last change is as late as the latest clock of a granted one. -/
  updatedAt : (o.through history).updatedAt =
    ((o.granted history).map (·.now)).foldl max o.updatedAt
  updatedAt_le : ∀ more,
    (o.through history).updatedAt ≤ (o.through (history ++ more)).updatedAt
  createdAt_le : (o.through history).createdAt ≤ (o.through history).updatedAt
  retryCount : (o.through history).retryCount =
    o.retryCount + (o.granted history).countP fun c => countsFailure c.step
  /-- A processed order is left alone by whatever comes after. -/
  processed : (o.through history).status = .processed →
    ∀ more, o.through (history ++ more) = o.through history

/-- **The reason fits the status**: an attempt that goes on or has succeeded has
    none, and one that has failed for good has a trimmed one that is not blank. -/
def ReasonFits (o : Order) : Prop :=
  match o.status with
  | .pending => True
  | .processing | .processed => o.failureReason = none
  | .failed => ∃ reason, o.failureReason = some reason ∧ Text.isBlank reason = false ∧
    Text.trim reason = reason

/-! ## One change -/

section change
variable {o : Order} {c : Change} {history more : List Change}

theorem apply_eq_ok_iff : (∃ o', o.apply c.step c.now = .ok o') ↔ o.status = c.step.source := by
  constructor
  · rintro ⟨o', ho'⟩
    by_contra hne
    rw [apply_of_ne_status hne] at ho'
    cases ho'
  · intro h
    exact ⟨_, apply_of_status h c.now⟩

/-- A granted change ends at the target of its transition. -/
theorem status_of_apply {o' : Order} (h : o.apply c.step c.now = .ok o') :
    o'.status = c.step.target := by
  rw [apply_of_status (apply_eq_ok_iff.mp ⟨o', h⟩), Except.ok.injEq] at h
  rw [← h, moved_status]

/-- A granted change moves the order. -/
theorem change_of_status (h : o.status = c.step.source) : o.change c = o.moved c.now c.step := by
  unfold change
  rw [apply_of_status h]

/-- A refused change leaves the order as it is. -/
theorem change_of_ne_status (h : o.status ≠ c.step.source) : o.change c = o := by
  unfold change
  rw [apply_of_ne_status h]

theorem granted_of_status (h : o.status = c.step.source) (rest : List Change) :
    o.granted (c :: rest) = c :: (o.change c).granted rest := by
  rw [granted, change_of_status h, apply_of_status h]

theorem granted_of_ne_status (h : o.status ≠ c.step.source) (rest : List Change) :
    o.granted (c :: rest) = (o.change c).granted rest := by
  rw [granted, change_of_ne_status h, apply_of_ne_status h]

theorem moved_updatedAt (o : Order) (now : Instant) (step : Transition) :
    (o.moved now step).updatedAt = max o.updatedAt now := by
  cases step <;> rfl

theorem moved_createdAt (o : Order) (now : Instant) (step : Transition) :
    (o.moved now step).createdAt = o.createdAt := by
  cases step <;> rfl

theorem moved_retryCount (o : Order) (now : Instant) (step : Transition) :
    (o.moved now step).retryCount = o.retryCount + (if countsFailure step then 1 else 0) := by
  cases step <;> rfl

/-- No transition starts where an order has been processed. -/
theorem change_of_processed (h : o.status = .processed) (c : Change) : o.change c = o := by
  apply change_of_ne_status
  rw [h]
  cases c.step <;> simp [Transition.source]

/-! ## Histories, change by change -/

theorem through_append (o : Order) (history more : List Change) :
    o.through (history ++ more) = (o.through history).through more :=
  List.foldl_append

/-- **What every granted change keeps** holds at the end of every history. -/
theorem through_keeps {P : Order → Prop} (hmove : ∀ o (c : Change), o.status = c.step.source →
    P o → P (o.moved c.now c.step)) (h : P o) (history : List Change) : P (o.through history) := by
  induction history generalizing o with
  | nil => exact h
  | cons c rest ih =>
    apply ih
    by_cases hc : o.status = c.step.source
    · rw [change_of_status hc]
      exact hmove o c hc h
    · rw [change_of_ne_status hc]
      exact h

theorem through_id (o : Order) (history : List Change) : (o.through history).id = o.id :=
  through_keeps (P := fun o' => o'.id = o.id)
    (fun o' c _ h => (o'.moved_id c.now c.step).trans h) rfl history

theorem through_createdAt (o : Order) (history : List Change) :
    (o.through history).createdAt = o.createdAt :=
  through_keeps (P := fun o' => o'.createdAt = o.createdAt)
    (fun o' c _ h => (o'.moved_createdAt c.now c.step).trans h) rfl history

/-- The last change is never earlier than it was. -/
theorem updatedAt_le_through (o : Order) (history : List Change) :
    o.updatedAt ≤ (o.through history).updatedAt := by
  refine through_keeps (P := fun o' => o.updatedAt ≤ o'.updatedAt) (fun o' c _ h => ?_) le_rfl
    history
  rw [moved_updatedAt]
  exact h.trans (le_max_left _ _)

theorem through_updatedAt (o : Order) (history : List Change) :
    (o.through history).updatedAt =
      ((o.granted history).map (·.now)).foldl max o.updatedAt := by
  induction history generalizing o with
  | nil => rfl
  | cons c rest ih =>
    show ((o.change c).through rest).updatedAt = _
    by_cases hc : o.status = c.step.source
    · rw [ih, granted_of_status hc, List.map_cons, List.foldl_cons, change_of_status hc,
        moved_updatedAt]
    · rw [ih, granted_of_ne_status hc, change_of_ne_status hc]

theorem through_retryCount (o : Order) (history : List Change) :
    (o.through history).retryCount =
      o.retryCount + (o.granted history).countP fun c => countsFailure c.step := by
  induction history generalizing o with
  | nil => rfl
  | cons c rest ih =>
    show ((o.change c).through rest).retryCount = _
    by_cases hc : o.status = c.step.source
    · rw [ih, granted_of_status hc, List.countP_cons, change_of_status hc, moved_retryCount]
      omega
    · rw [ih, granted_of_ne_status hc, change_of_ne_status hc]

theorem through_of_processed (h : o.status = .processed) (more : List Change) :
    o.through more = o := by
  induction more with
  | nil => rfl
  | cons c rest ih =>
    show (o.change c).through rest = o
    rw [change_of_processed h, ih]

end change

/-! ## Reasons -/

/-- A reason that is kept is trimmed and not blank. -/
theorem tidyReason_tidy (reason : String) : Text.isBlank (tidyReason reason) = false ∧
    Text.trim (tidyReason reason) = tidyReason reason := by
  unfold tidyReason Text.nonBlank
  by_cases h : Text.isBlank reason = true
  · rw [if_pos h]
    decide
  · rw [if_neg h]
    show Text.isBlank (Text.trim reason) = false ∧ Text.trim (Text.trim reason) = Text.trim reason
    rw [Text.isBlank_trim, Text.trim_trim]
    exact ⟨by simpa using h, rfl⟩

/-- A granted change keeps the reason fitting. -/
theorem ReasonFits.moved {o : Order} {c : Change} (hc : o.status = c.step.source)
    (h : o.ReasonFits) : (o.moved c.now c.step).ReasonFits := by
  unfold ReasonFits at h ⊢
  rw [moved_status]
  cases hstep : c.step with
  | start => rfl
  | complete =>
    -- The attempt went on until now, so there is no reason that could be left.
    rw [hc, hstep] at h
    exact h
  | fail reason => exact ⟨_, rfl, tidyReason_tidy reason⟩
  | scheduleRetry reason | reset reason => trivial

/-! ## Every history -/

theorem Beginning.createdAt_le (b : Beginning) : b.order.createdAt ≤ b.order.updatedAt := by
  cases b with
  | fresh id now => exact le_rfl
  | stored => exact le_max_right _ _

/-- **Every history is lawful.**  It may begin with a fresh order or with one that
    was kept elsewhere, whatever its status, times, count and reason are, and any
    changes may be asked for with any clocks.  If it begins with a fresh order, the
    reason always fits the status. -/
theorem histories_are_lawful (b : Beginning) (history : List Change) :
    Lawful b.order history ∧
      ∀ id now, b = .fresh id now → (b.order.through history).ReasonFits := by
  constructor
  · have hid := b.order.through_id history
    have hcreated := b.order.through_createdAt history
    refine {
      grants := fun c => apply_eq_ok_iff
      target := fun c o' => status_of_apply
      refuses := fun c e he => ?_
      id := hid
      createdAt := hcreated
      updatedAt := b.order.through_updatedAt history
      updatedAt_le := fun more => ?_
      createdAt_le := ?_
      retryCount := b.order.through_retryCount history
      processed := fun h more => ?_ }
    · have hne : (b.order.through history).status ≠ c.step.source := by
        intro heq
        rw [apply_of_status heq] at he
        cases he
      rw [apply_of_ne_status hne, Except.error.injEq, hid] at he
      exact ⟨change_of_ne_status hne, he.symm⟩
    · rw [through_append]
      exact updatedAt_le_through _ more
    · rw [hcreated]
      exact b.createdAt_le.trans (updatedAt_le_through _ history)
    · rw [through_append]
      exact through_of_processed h more
  · rintro id now rfl
    have hfresh : (Order.fresh id now).ReasonFits := trivial
    exact through_keeps (fun o c => ReasonFits.moved) hfresh history

/-- An attempt fails for good, a change is refused, and an operator resets the
    order, all with clocks that go back. -/
theorem histories_are_lawful_clocks_back :
    let o := Beginning.order (.fresh ⟨.ofNat 7⟩ .newYear2024)
    let history : List Change := [⟨.start, .earliest⟩, ⟨.fail " \n", .latest⟩,
      ⟨.complete, .newYear2024⟩, ⟨.reset " again ", .earliest⟩]
    o.through history =
        { o with updatedAt := .latest, retryCount := 1, failureReason := some " again " } ∧
      (o.granted history).length = 3 ∧ Lawful o history := by
  refine ⟨by decide, by decide, ?_⟩
  exact (histories_are_lawful (.fresh ⟨.ofNat 7⟩ .newYear2024) _).1

end Order

end OrderFlow
