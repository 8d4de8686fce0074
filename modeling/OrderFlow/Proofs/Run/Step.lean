import Mathlib.Logic.Relation
import OrderFlow.Proofs.Run.Action

/-! # Steps and the journal

    A run of a pipeline's world is broken down into steps, none of which
    spans more than one transaction.  A journal notes what the steps'
    answers say about orders: what open transactions have changed, and, in
    the order of the commits, what has been committed.

    Every action is a sequence of such steps (`Action.continues`), so whatever
    holds after every sequence of steps holds after every sequence of
    actions, and also while one of them is under way. -/

namespace OrderFlow

open World

/-- What can happen to an order. -/
inductive Change where
  /-- It was accepted. -/
  | accepted
  /-- An attempt has succeeded. -/
  | completed
  /-- An attempt has failed, out of so many, and there will be another. -/
  | postponed (maxRetries : Nat)
  /-- An attempt has failed, out of so many, and was the last. -/
  | givenUp (maxRetries : Nat)
  /-- It was given another chance. -/
  | readmitted
  deriving DecidableEq

/-- What an attempt that has called the processor changes. -/
def Outcome.change (maxRetries : Nat) : Outcome → Change
  | .processed => .completed
  | .retry => .postponed maxRetries
  | .failed => .givenUp maxRetries

/-- If the change is a failed attempt, it was one out of such a number. -/
def Change.Within (limits : Nat → Prop) : Change → Prop
  | .postponed maxRetries | .givenUp maxRetries => limits maxRetries
  | _ => True

/-- What has happened to orders, oldest first. -/
structure Journal where
  /-- What open transactions have changed. -/
  staged : TxId → OrderId → List Change := fun _ _ => []
  /-- What has been committed. -/
  committed : OrderId → List Change := fun _ => []

namespace Journal

/-- Transaction `t` has changed an order. -/
def note (j : Journal) (t : TxId) (id : OrderId) (c : Change) : Journal :=
  { j with
    staged := fun u i => if u = t ∧ i = id then j.staged t id ++ [c] else j.staged u i }

/-- Transaction `t` has ended. -/
def forget (j : Journal) (t : TxId) : Journal :=
  { j with staged := fun u i => if u = t then [] else j.staged u i }

/-- Transaction `t` has committed. -/
def commit (j : Journal) (t : TxId) : Journal :=
  { j.forget t with committed := fun i => j.committed i ++ j.staged t i }

/-- Transaction `t` has accepted an order, or tried to. -/
def noteAccept (j : Journal) (t : TxId) : Except OperationError (OrderId × List Signal) → Journal
  | .ok (id, _) => j.note t id .accepted
  | .error _ => j

/-- Transaction `t` has given an order another chance, or tried to. -/
def noteReadmit (j : Journal) (t : TxId) (id : OrderId) :
    Except OperationError (List Signal) → Journal
  | .ok _ => j.note t id .readmitted
  | .error _ => j

/-- Transaction `t` has made an attempt on an order, or passed it over. -/
def noteAttempt (j : Journal) (t : TxId) (id : OrderId) (maxRetries : Nat) (called : Bool) :
    Except OperationError Outcome → Journal
  | .ok outcome => if called then j.note t id (outcome.change maxRetries) else j
  | .error _ => j

/-- Transaction `t` has tried to commit. -/
def finish (j : Journal) (t : TxId) : Except OperationError Unit → Journal
  | .ok _ => j.commit t
  | .error _ => j.forget t

/-- **All failed attempts were within limits**: each was one out of such a
    number. -/
structure Within (limits : Nat → Prop) (j : Journal) : Prop where
  staged : ∀ {t id c}, c ∈ j.staged t id → c.Within limits
  committed : ∀ {id c}, c ∈ j.committed id → c.Within limits

section within
variable {limits : Nat → Prop} {j : Journal} {t : TxId} {id : OrderId}

theorem within_empty : Within limits {} where
  staged hc := by cases hc
  committed hc := by cases hc

theorem Within.note {c : Change} (h : j.Within limits) (hc : c.Within limits) :
    (j.note t id c).Within limits where
  staged := by
    intro u i c' hc'
    change c' ∈ (if u = t ∧ i = id then j.staged t id ++ [c] else j.staged u i) at hc'
    split at hc'
    · rcases List.mem_append.mp hc' with hold | hnew
      · exact h.staged hold
      · exact List.mem_singleton.mp hnew ▸ hc
    · exact h.staged hc'
  committed := h.committed

theorem Within.forget (h : j.Within limits) : (j.forget t).Within limits where
  staged := by
    intro u i c hc
    change c ∈ (if u = t then [] else j.staged u i) at hc
    split at hc
    · cases hc
    · exact h.staged hc
  committed := h.committed

theorem Within.commit (h : j.Within limits) : (j.commit t).Within limits where
  staged := h.forget.staged
  committed := by
    intro i c hc
    rcases List.mem_append.mp hc with hold | hnew
    · exact h.committed hold
    · exact h.staged hnew

/-- What an attempt out of `m` notes. -/
theorem Within.noteAttempt {m : Nat} (h : j.Within limits) (hm : limits m) (called : Bool)
    (r : Except OperationError Outcome) : (j.noteAttempt t id m called r).Within limits := by
  unfold Journal.noteAttempt
  split
  · next outcome =>
    split
    · refine h.note ?_
      cases outcome <;> first | exact hm | trivial
    · exact h
  · exact h

end within

end Journal

/-- Calls that work on outbox rows in transaction `t`. -/
inductive OnRows (t : TxId) : {α : Type} → StoreCall α → Prop where
  /-- Ends stale leases. -/
  | endStaleLeases (limit : Instant) : OnRows t (Store.endStaleLeases t limit)
  /-- Claims due rows. -/
  | claimDue (limit : Nat) (now : Instant) : OnRows t (Store.claimDue t limit now)
  /-- Changes a row. -/
  | changeRow (id : RowId) (f : OutboxRow → OutboxRow) (h : Store.KeepsId f) :
    OnRows t (Store.changeRow t id f)

/-- Has the processor been called between the two worlds? -/
def World.calledUntil (w w' : World) : Bool :=
  w'.processor.calls ≠ w.processor.calls

/-- **One step** and what the journal notes of it. -/
inductive Step : World × Journal → World × Journal → Prop where
  /-- Something happens elsewhere. -/
  | elsewhere {w w' : World} {j : Journal} (h : Elsewhere w w') : Step (w, j) (w', j)
  /-- A transaction begins, or tries to. -/
  | start {w w' : World} {j : Journal} {r : Except OperationError TxId}
    (h : Call.start w = some (r, w')) : Step (w, j) (w', j)
  /-- A transaction accepts an order. -/
  | accept {w w' : World} {j : Journal} {mode : PublishMode} {t : TxId}
    {correlation : Option String} {now : Instant}
    {r : Except OperationError (OrderId × List Signal)}
    (h : mode.stageAccept t correlation now w = some (r, w')) :
    Step (w, j) (w', j.noteAccept t r)
  /-- A transaction gives an order another chance, having seen a dead letter
      of it at some time. -/
  | readmit {w w' : World} {j : Journal} {mode : PublishMode} {t : TxId} {id : OrderId}
    {now : Instant} {r : Except OperationError (List Signal)}
    (h : mode.readmitFound t id now w = some (r, w')) :
    Step (w, j) (w', j.noteReadmit t id r)
  /-- A transaction makes an attempt on an order. -/
  | attempt {w w' : World} {j : Journal} {t : TxId} {id : OrderId} {now : Instant}
    {maxRetries : Nat} {r : Except OperationError Outcome}
    (h : processIn t id now maxRetries w = some (r, w')) :
    Step (w, j) (w', j.noteAttempt t id maxRetries (w.calledUntil w') r)
  /-- A transaction works on outbox rows. -/
  | rows {w w' : World} {j : Journal} {t : TxId} {α : Type} {m : StoreCall α}
    {r : Except OperationError α} (hm : OnRows t m) (h : Call.inStore m w = some (r, w')) :
    Step (w, j) (w', j)
  /-- A transaction commits, or tries to. -/
  | commit {w w' : World} {j : Journal} {t : TxId} {r : Except OperationError Unit}
    (h : Call.commit t w = some (r, w')) : Step (w, j) (w', j.finish t r)
  /-- A transaction is abandoned. -/
  | abandon {w w' : World} {j : Journal} {t : TxId} {r : Except OperationError Unit}
    (h : Call.inStore (Store.abandon t) w = some (r, w')) : Step (w, j) (w', j.forget t)

/-- Any number of steps. -/
abbrev Steps : World × Journal → World × Journal → Prop :=
  Relation.ReflTransGen Step

/-- **A run**: steps from an empty store, and what the journal has noted. -/
def Reached (w : World) (j : Journal) : Prop :=
  ∃ w₀ : World, w₀.store = {} ∧ Steps (w₀, {}) (w, j)

theorem reached_empty {w : World} (h : w.store = {}) : Reached w {} :=
  ⟨w, h, .refl⟩

theorem Reached.steps {w w' : World} {j j' : Journal} (h : Reached w j)
    (hs : Steps (w, j) (w', j')) : Reached w' j' := by
  obtain ⟨w₀, hempty, hsteps⟩ := h
  exact ⟨w₀, hempty, hsteps.trans hs⟩

/-! ## Actions are steps -/

/-- Whatever the journal says so far, as long as it is within limits, steps
    lead from one world to the other and stay within limits. -/
def Continues (limits : Nat → Prop) (w w' : World) : Prop :=
  ∀ j : Journal, j.Within limits → ∃ j', Steps (w, j) (w', j') ∧ j'.Within limits

namespace Continues

variable {limits : Nat → Prop}

theorem of_step {w w' : World}
    (h : ∀ j : Journal, j.Within limits → ∃ j', Step (w, j) (w', j') ∧ j'.Within limits) :
    Continues limits w w' := by
  intro j hj
  obtain ⟨j', hstep, hj'⟩ := h j hj
  exact ⟨j', .single hstep, hj'⟩

theorem chains : Attempt.Chains (Continues limits) where
  refl w j hj := ⟨j, .refl, hj⟩
  trans := by
    intro w₁ w₂ w₃ h₁ h₂ j hj
    obtain ⟨j', hs, hj'⟩ := h₁ j hj
    obtain ⟨j'', hs', hj''⟩ := h₂ j' hj'
    exact ⟨j'', hs.trans hs', hj''⟩

theorem elsewhere {w w' : World} (h : Elsewhere w w') : Continues limits w w' :=
  of_step fun j hj => ⟨j, .elsewhere h, hj⟩

theorem of_elsewhere {α : Type} {m : Call α} (hm : Attempt.Moves Elsewhere m) :
    Attempt.Moves (Continues limits) m :=
  fun w r w' hw => elsewhere (hm w r w' hw)

theorem rows {t : TxId} {α : Type} {m : StoreCall α} (hm : OnRows t m) :
    Attempt.Moves (Continues limits) (Call.inStore m) :=
  fun _ _ _ h => of_step fun j hj => ⟨j, .rows hm h, hj⟩

theorem respectsRows : RespectsRows (Continues limits) :=
  fun _ id f hf => rows (.changeRow id f hf)

theorem respects : Respects (Continues limits) limits where
  chains := chains
  aside h := elsewhere h.toElsewhere
  start _ _ _ h := of_step fun j hj => ⟨j, .start h, hj⟩
  attempt _ _ _ _ hm _ _ _ h := of_step fun _ hj => ⟨_, .attempt h, hj.noteAttempt hm _ _⟩
  endStaleLeases _ limit := rows (.endStaleLeases limit)
  claimDue _ limit now := rows (.claimDue limit now)
  leaseRow _ id _ _ := rows (.changeRow id _ fun _ => rfl)
  commit t _ r _ h := of_step fun _ hj => by
    refine ⟨_, .commit h, ?_⟩
    cases r with
    | ok => exact hj.commit
    | error => exact hj.forget
  abandon _ _ _ _ h := of_step fun _ hj => ⟨_, .abandon h, hj.forget⟩

theorem stageAccept (mode : PublishMode) (t : TxId) (correlation : Option String)
    (now : Instant) : Attempt.Moves (Continues limits) (mode.stageAccept t correlation now) := by
  intro w r w' h
  refine of_step fun j hj => ⟨_, .accept h, ?_⟩
  cases r with
  | ok => exact hj.note trivial
  | error => exact hj

theorem stageReadmit (mode : PublishMode) (t : TxId) (id : OrderId) (now : Instant) :
    Attempt.Moves (Continues limits) <| mode.stageReadmit t id now := by
  intro w r w' h
  obtain ⟨tx, -, ⟨-, -, rfl⟩ | ⟨-, hfound⟩⟩ := PublishMode.stageReadmit_eq_some h
  · -- Where no letter is seen, nothing is locked, and there is no step.
    exact chains.refl _
  · refine of_step fun j hj => ⟨_, Step.readmit hfound, ?_⟩
    cases r with
    | ok => exact hj.note trivial
    | error => exact hj

end Continues

/-- Every mode and forwarding. -/
theorem Action.within_any (a : Action) : a.Within (fun _ => True) True := by
  cases a <;> first
    | trivial
    | (rename_i worker _ _; cases worker <;> trivial)

/-- **Every action is a sequence of steps**, and within limits if it is so
    itself. -/
theorem Action.continues {limits : Nat → Prop} {a : Action} {w w' : World}
    {r : Except OperationError Unit} (hlimit : ∀ m ∈ a.maxRetries?, limits m)
    (h : a.call w = some (r, w')) : Continues limits w w' :=
  Action.moves_elsewhere Continues.respects Continues.elsewhere
    (fun mode _ => Continues.stageAccept mode) (fun mode _ => Continues.stageReadmit mode)
    (fun _ hp now => Continues.respects.pollOutbox Continues.respectsRows now hp)
    (fun _ r now => Continues.respects.relay Continues.respectsRows now
      (fun m => Continues.of_elsewhere (Call.moves_trySend m)) r)
    a.within_any hlimit w r w' h

/-- **Any number of actions** is a sequence of steps, and within limits if each
    of them is. -/
theorem World.play_continues {limits : Nat → Prop} {w w' : World} {actions : List Action}
    (hlimit : ∀ a ∈ actions, ∀ m ∈ a.maxRetries?, limits m) (h : w.play actions = some w') :
    Continues limits w w' := by
  induction actions generalizing w with
  | nil =>
    cases h
    exact Continues.chains.refl _
  | cons a rest ih =>
    obtain ⟨r, w₁, hcall, hrest⟩ := World.play_cons h
    refine Continues.chains.trans (Action.continues (hlimit a List.mem_cons_self) hcall) ?_
    exact ih (fun a ha => hlimit a (List.mem_cons_of_mem _ ha)) hrest

/-- Any journal is within limits that forbid nothing. -/
theorem Journal.within_any (j : Journal) : j.Within fun _ => True where
  staged {_ _ c} _ := by cases c <;> trivial
  committed {_ c} _ := by cases c <;> trivial

theorem World.play_steps {w w' : World} {actions : List Action}
    (h : w.play actions = some w') (j : Journal) : ∃ j', Steps (w, j) (w', j') := by
  obtain ⟨j', hsteps, -⟩ := World.play_continues (fun _ _ _ _ => trivial) h j j.within_any
  exact ⟨j', hsteps⟩

theorem Reached.play {w w' : World} {j : Journal} {actions : List Action} (h : Reached w j)
    (hplay : w.play actions = some w') : ∃ j', Reached w' j' := by
  obtain ⟨j', hsteps⟩ := World.play_steps hplay j
  exact ⟨j', h.steps hsteps⟩

end OrderFlow
