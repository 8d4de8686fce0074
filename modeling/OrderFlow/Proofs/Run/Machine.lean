import OrderFlow.Proofs.Run.Whole
import OrderFlow.Proofs.Steady

/-! # The retry machine

    However the attempts on an order are brought about, they follow one
    machine that knows nothing of queues, rows and messages.  As long as the
    order is to be processed, the processor is called for it: a success
    settles the order, a failure counts, and after `m` failures the order is
    given up on with a dead letter (`Standing.next`).

    `World.standing` is what can be seen of an order.  Where nobody
    interferes, a turn leaves every standing as it is, starts one, or takes
    one a step further (`World.Serves`), so all of them are standings of the
    machine (`World.OnTrack`). -/

namespace OrderFlow

open World

/-! ## The machine -/

/-- **What can be seen of an order**: where it is, what its attempts have left
    behind, how often the processor was called for it, and the reason and the
    count in its dead letter. -/
structure Standing where
  status : Status := .pending
  retryCount : Nat := 0
  failureReason : Option String := none
  calls : Nat := 0
  letter : Option (String × Nat) := none
  deriving DecidableEq

namespace Standing

/-- **One step**: if the order is to be processed, the processor is called for
    it and fails for a reason or succeeds. -/
def next (m : Nat) (failure : Option String) (s : Standing) : Standing :=
  if s.status = .pending then
    match failure with
    | none => { s with status := .processed, failureReason := none, calls := s.calls + 1 }
    | some reason =>
      let s := { s with
        retryCount := s.retryCount + 1
        failureReason := some (tidyReason reason)
        calls := s.calls + 1 }
      if s.retryCount < m then s
      else { s with status := .failed, letter := some (tidyReason reason, s.retryCount) }
  else s

/-- **The machine** after `n` steps, if call `k` of the processor for the order
    ends as `script k` says. -/
def after (script : Nat → Option String) (m : Nat) : Nat → Standing
  | 0 => {}
  | n + 1 => (after script m n).next m (script n)

section machine
variable {script : Nat → Option String} {m n : Nat}

theorem next_of_settled {s : Standing} (h : s.status ≠ .pending) (failure : Option String) :
    s.next m failure = s := by
  unfold next
  rw [if_neg h]

theorem after_succ (script : Nat → Option String) (m n : Nat) :
    after script m (n + 1) = (after script m n).next m (script n) := rfl

/-- As long as the order is to be processed, every step was a failure that
    counts. -/
theorem pending_after (hm : 0 < m) (h : (after script m n).status = .pending) :
    n < m ∧ (∀ k < n, script k ≠ none) ∧ (after script m n).retryCount = n ∧
      (after script m n).calls = n ∧ (after script m n).letter = none := by
  induction n with
  | zero => exact ⟨hm, by simp, rfl, rfl, rfl⟩
  | succ n ih =>
    rw [after_succ] at h ⊢
    by_cases hpending : (after script m n).status = .pending
    · obtain ⟨-, hfailed, hcount, hcalls, hletter⟩ := ih hpending
      cases hn : script n with
      | none => simp [next, hpending, hn] at h
      | some reason =>
        by_cases hless : n + 1 < m
        · refine ⟨hless, fun k hk => ?_, ?_⟩
          · rcases Nat.lt_succ_iff_lt_or_eq.mp hk with hlt | rfl
            · exact hfailed k hlt
            · simp [hn]
          · simp [next, hpending, hcount, hcalls, hletter, hless]
        · simp [next, hpending, hn, hcount, hless] at h
    · rw [next_of_settled hpending] at h
      exact absurd h hpending

/-- Failures that are few enough leave the order to be processed. -/
theorem pending_of_failures (hn : n < m) (h : ∀ k < n, script k ≠ none) :
    (after script m n).status = .pending := by
  induction n with
  | zero => rfl
  | succ n ih =>
    have hpending := ih (by omega) fun k hk => h k (by omega)
    obtain ⟨-, -, hcount, -⟩ := pending_after (by omega) hpending
    obtain ⟨reason, hreason⟩ := Option.ne_none_iff_exists'.mp (h n (by omega))
    simp [after, next, hpending, hreason, hcount, hn]

/-- A settled order stays as it is. -/
theorem after_settled (h : (after script m n).status ≠ .pending) (k : Nat) :
    after script m (n + k) = after script m n := by
  induction k with
  | zero => rfl
  | succ k ih =>
    show (after script m (n + k)).next m (script (n + k)) = _
    rw [ih, next_of_settled h]

/-- After `m` steps the order is settled. -/
theorem settled_after (hm : 0 < m) : (after script m m).status ≠ .pending := by
  intro hpending
  obtain ⟨hlt, -⟩ := pending_after hm hpending
  omega

/-- **All settled orders look the same**, whenever they were settled. -/
theorem eq_end_of_settled (hm : 0 < m) (h : (after script m n).status ≠ .pending) :
    after script m n = after script m m := by
  rcases Nat.le_total n m with hle | hle
  · obtain ⟨k, rfl⟩ := Nat.exists_eq_add_of_le hle
    exact (after_settled h k).symm
  · obtain ⟨k, rfl⟩ := Nat.exists_eq_add_of_le hle
    exact after_settled (settled_after hm) k

/-- **The end of the machine**, if the first success is call `n`. -/
theorem end_of_success (hn : n < m) (hfailed : ∀ k < n, script k ≠ none) (h : script n = none) :
    after script m m = { status := .processed, retryCount := n, calls := n + 1 } := by
  have hpending := pending_of_failures hn hfailed
  obtain ⟨-, -, hcount, hcalls, hletter⟩ := pending_after (by omega) hpending
  have hstep : after script m (n + 1) =
      { status := .processed, retryCount := n, calls := n + 1 } := by
    simp [after, next, hpending, h, hcount, hcalls, hletter]
  rw [← hstep]
  exact (eq_end_of_settled (by omega) (by simp [hstep])).symm

/-- **The end of the machine**, if all the calls fail, the last one for the reason
    `reason`. -/
theorem end_of_failures {reason : String} (hm : 0 < m) (hfailed : ∀ k < m, script k ≠ none)
    (h : script (m - 1) = some reason) :
    after script m m = {
      status := .failed
      retryCount := m
      failureReason := some (tidyReason reason)
      calls := m
      letter := some (tidyReason reason, m) } := by
  obtain ⟨n, rfl⟩ : ∃ n, m = n + 1 := ⟨m - 1, by omega⟩
  have hpending : (after script (n + 1) n).status = .pending :=
    pending_of_failures (by omega) fun k hk => hfailed k (by omega)
  obtain ⟨-, -, hcount, hcalls, -⟩ := pending_after hm hpending
  have hlast : script n = some reason := h
  show (after script (n + 1) n).next (n + 1) (script n) = _
  simp [next, hpending, hlast, hcount, hcalls]

end machine

end Standing

/-! ## What a turn does to orders -/

namespace World

variable {w w' w₁ w₂ : World} {o : Order} {id : OrderId} {m : Nat}

/-- What can be seen of an order. -/
def standing (w : World) (o : Order) : Standing where
  status := o.status
  retryCount := o.retryCount
  failureReason := o.failureReason
  calls := w.processor.calls.count o.id
  letter := (w.store.deadLetters.find? o.id).map fun d => (d.reason, d.retryCount)

/-- Why the processor would fail for an order now, if it would. -/
def failure (w : World) (id : OrderId) : Option String :=
  (w.processor.react w.processor.calls id).failure

/-- **Orders are as they were**, and so are dead letters and the processor's calls. -/
structure SameOrders (w w' : World) : Prop where
  orders : ∀ id, w'.store.orders.find? id = w.store.orders.find? id
  letters : ∀ id, w'.store.deadLetters.find? id = w.store.deadLetters.find? id
  calls : w'.processor.calls = w.processor.calls

/-- **An attempt was made** on an order that was to be processed. -/
structure Tried (w : World) (o : Order) (m : Nat) (w' : World) : Prop where
  order : w.store.orders.find? o.id = some o
  pending : o.status = .pending
  called : w'.processor.calls = w.processor.calls ++ [o.id]
  written : ∃ now, (∀ i, w'.store.orders.find? i =
      if o.id = i then some (o.after now m (w.failure o.id)) else w.store.orders.find? i) ∧
    ∀ i, w'.store.deadLetters.find? i =
      if o.id = i then (o.letterAfter now m (w.failure o.id)).or (w.store.deadLetters.find? i)
      else w.store.deadLetters.find? i

/-- **An order has come up for an attempt**, which is made if there is such an
    order and it is to be processed. -/
inductive Attends (w : World) (id : OrderId) (m : Nat) (w' : World) : Prop where
  | idle (h : SameOrders w w')
    (hsettled : ∀ o, w.store.orders.find? id = some o → o.status ≠ .pending)
  | tried {o : Order} (hid : o.id = id) (h : Tried w o m w')

/-- **What a turn does to orders**, with the order that comes up in it. -/
inductive Serves (w : World) (m : Nat) : Option OrderId → World → Prop where
  | kept {w' : World} (h : SameOrders w w') : Serves w m none w'
  /-- There is a new order. -/
  | raised {w' : World} {id : OrderId} {now : Instant} (hnew : w.store.orders.find? id = none)
    (hdrawn : w'.ids.HasDrawn id.uuid)
    (horders : ∀ i, w'.store.orders.find? i =
      if id = i then some (.fresh id now) else w.store.orders.find? i)
    (hletters : ∀ i, w'.store.deadLetters.find? i = w.store.deadLetters.find? i)
    (hcalls : w'.processor.calls = w.processor.calls) : Serves w m (some id) w'
  | tried {w' : World} {o : Order} (h : Tried w o m w') : Serves w m none w'

theorem sameOrders_chains : Attempt.Chains SameOrders where
  refl _ := ⟨fun _ => rfl, fun _ => rfl, rfl⟩
  trans h₁ h₂ := ⟨fun id => (h₂.orders id).trans (h₁.orders id),
    fun id => (h₂.letters id).trans (h₁.letters id), h₂.calls.trans h₁.calls⟩

theorem sameOrders_of_eq (hstore : w'.store = w.store) (hprocessor : w'.processor = w.processor) :
    SameOrders w w' := by
  refine ⟨fun id => ?_, fun id => ?_, ?_⟩
  · rw [hstore]
  · rw [hstore]
  · rw [hprocessor]

/-- A transaction that writes no orders and calls no processor. -/
theorem Wrote.sameOrders {tx : Transaction} (h : Wrote w [] tx w') (horders : tx.orders = [])
    (hletters : tx.deadLetters = []) : SameOrders w w' where
  orders i := (h.orders i).trans (Store.orderIn_of_unstaged (by rw [horders]; rfl) _)
  letters i := by
    rw [h.letters]
    exact Store.letterIn_of_unstaged (by rw [hletters]; rfl) _
  calls := by rw [h.calls, List.append_nil]

/-- Before and after an attempt there may be something else, if it leaves orders
    alone. -/
theorem Tried.within (h : Tried w₁ o m w₂) (hbefore : SameOrders w w₁)
    (hreact : w₁.processor.react = w.processor.react) (hafter : SameOrders w₂ w') :
    Tried w o m w' := by
  have hfailure : w₁.failure o.id = w.failure o.id := by
    unfold failure
    rw [hreact, hbefore.calls]
  obtain ⟨now, horders, hletters⟩ := h.written
  refine ⟨?_, h.pending, ?_, now, fun i => ?_, fun i => ?_⟩
  · rw [← hbefore.orders, h.order]
  · rw [hafter.calls, h.called, hbefore.calls]
  · rw [hafter.orders, horders, hfailure, hbefore.orders]
  · rw [hafter.letters, hletters, hfailure, hbefore.letters]

theorem Attends.within (h : Attends w₁ id m w₂) (hbefore : SameOrders w w₁)
    (hreact : w₁.processor.react = w.processor.react) (hafter : SameOrders w₂ w') :
    Attends w id m w' := by
  cases h with
  | idle hsame hsettled =>
    refine .idle (sameOrders_chains.trans (sameOrders_chains.trans hbefore hsame) hafter) ?_
    intro o ho
    exact hsettled o ((hbefore.orders id).trans ho)
  | tried hid htried => exact .tried hid (htried.within hbefore hreact hafter)

theorem Attends.serves (h : Attends w id m w') : Serves w m none w' := by
  cases h with
  | idle hsame _ => exact .kept hsame
  | tried _ htried => exact .tried htried

theorem Serves.andThen (h : Serves w m none w₁) (hafter : SameOrders w₁ w') :
    Serves w m none w' := by
  cases h with
  | kept hsame => exact .kept (sameOrders_chains.trans hsame hafter)
  | tried htried => exact .tried (htried.within (sameOrders_chains.refl w) rfl hafter)

/-- Other orders are as they were. -/
theorem Tried.elsewhere (h : Tried w o m w') {i : OrderId} (hi : o.id ≠ i) :
    w'.store.orders.find? i = w.store.orders.find? i ∧
      w'.store.deadLetters.find? i = w.store.deadLetters.find? i ∧
      w'.processor.calls.count i = w.processor.calls.count i := by
  obtain ⟨now, horders, hletters⟩ := h.written
  refine ⟨?_, ?_, ?_⟩
  · rw [horders, if_neg hi]
  · rw [hletters, if_neg hi]
  · simp [h.called, hi]

/-- **Later**: orders are still there, none is to be processed that was not,
    and the processor was called at least as often. -/
structure Later (w w' : World) : Prop where
  stays : ∀ {id o}, w.store.orders.find? id = some o →
    ∃ o', w'.store.orders.find? id = some o' ∧ (o'.status = .pending → o.status = .pending)
  counts : ∀ id, w.processor.calls.count id ≤ w'.processor.calls.count id

theorem Serves.later {raised : Option OrderId} (h : Serves w m raised w') : Later w w' := by
  cases h with
  | kept h =>
    refine ⟨fun {id o} ho => ⟨o, ?_, fun h => h⟩, fun id => ?_⟩
    · rw [h.orders, ho]
    · exact Nat.le_of_eq (by rw [h.calls])
  | @raised _ new _ hnew _ horders _ hcalls =>
    refine ⟨fun {id o} ho => ⟨o, ?_, fun h => h⟩, fun id => ?_⟩
    · rw [horders, if_neg, ho]
      intro heq
      rw [heq, ho] at hnew
      cases hnew
    · exact Nat.le_of_eq (by rw [hcalls])
  | @tried _ o h =>
    refine ⟨fun {id o₁} ho₁ => ?_, fun id => ?_⟩
    · by_cases hid : o.id = id
      · obtain ⟨now, horders, -⟩ := h.written
        subst hid
        rw [h.order, Option.some.injEq] at ho₁
        exact ⟨_, by rw [horders, if_pos rfl], fun _ => ho₁ ▸ h.pending⟩
      · exact ⟨o₁, by rw [(h.elsewhere hid).1, ho₁], fun h => h⟩
    · rw [h.called, List.count_append]
      omega

/-- **Where an order comes from** that is there after a turn. -/
theorem Serves.origin {raised : Option OrderId} {o' : Order} (h : Serves w m raised w')
    (ho' : w'.store.orders.find? id = some o') : raised = some id ∨
      ∃ o, w.store.orders.find? id = some o ∧ (o'.status = .pending → o.status = .pending) := by
  cases h with
  | kept h =>
    rw [h.orders] at ho'
    exact Or.inr ⟨o', ho', fun h => h⟩
  | raised _ _ horders _ _ =>
    rw [horders] at ho'
    split at ho'
    · next hid => exact Or.inl (congrArg some hid)
    · exact Or.inr ⟨o', ho', fun h => h⟩
  | @tried _ o h =>
    by_cases hid : o.id = id
    · exact Or.inr ⟨o, hid ▸ h.order, fun _ => h.pending⟩
    · rw [(h.elsewhere hid).1] at ho'
      exact Or.inr ⟨o', ho', fun h => h⟩

/-! ## Standings follow the machine -/

theorem standing_congr (hcount : w'.processor.calls.count o.id = w.processor.calls.count o.id)
    (hletter : w'.store.deadLetters.find? o.id = w.store.deadLetters.find? o.id) :
    w'.standing o = w.standing o := by
  unfold standing
  rw [hcount, hletter]

/-- **An attempt is one step of the machine.** -/
theorem Tried.standing (h : Tried w o m w') :
    ∃ o', w'.store.orders.find? o.id = some o' ∧
      w'.standing o' = (w.standing o).next m (w.failure o.id) := by
  obtain ⟨now, horders, hletters⟩ := h.written
  have hcount : w'.processor.calls.count o.id = w.processor.calls.count o.id + 1 := by
    simp [h.called]
  refine ⟨_, by rw [horders, if_pos rfl], ?_⟩
  cases hfailure : w.failure o.id with
  | none =>
    have hletter := hletters o.id
    simp only [if_pos, hfailure, Order.letterAfter, Option.none_or] at hletter
    simp [World.standing, Standing.next, h.pending, Order.after, Order.tried, Order.moved, hcount,
      hletter]
  | some reason =>
    have hletter := hletters o.id
    by_cases hless : o.retryCount + 1 < m
    · simp [hfailure, Order.letterAfter, hless] at hletter
      simp [World.standing, Standing.next, h.pending, Order.after, Order.tried, Order.moved, hcount,
        hletter, hless]
    · simp [hfailure, Order.letterAfter, hless] at hletter
      simp [World.standing, Standing.next, h.pending, Order.after, Order.tried, Order.moved, hcount,
        hletter, hless, Order.letter]

/-- **On track**: where nobody interferes and call `k` of the processor for the
    order `id` ends as `script id k` says, every order is where the machine is. -/
structure OnTrack (w : World) (script : OrderId → Nat → Option String) (m : Nat) : Prop where
  steady : w.Steady
  answers : ∀ calls id, (w.processor.react calls id).failure = script id (calls.count id)
  drawn : ∀ {id o}, w.store.orders.find? id = some o → w.ids.HasDrawn id.uuid
  unknown : ∀ {id}, w.store.orders.find? id = none →
    w.processor.calls.count id = 0 ∧ w.store.deadLetters.find? id = none
  follows : ∀ {id o}, w.store.orders.find? id = some o →
    ∃ n, w.standing o = .after (script id) m n

variable {script : OrderId → Nat → Option String} {raised : Option OrderId}

/-- An order that is to be processed has been tried often enough for its count. -/
theorem OnTrack.pending (h : w.OnTrack script m) (hm : 0 < m) (horderly : w.store.Orderly)
    (ho : w.store.orders.find? id = some o) (hpending : o.status = .pending) :
    w.standing o = .after (script id) m (w.processor.calls.count id) ∧
      w.processor.calls.count id < m := by
  obtain ⟨n, hn⟩ := h.follows ho
  obtain rfl := horderly.orders.own ho
  obtain ⟨hlt, -, -, hcalls, -⟩ := Standing.pending_after hm
    (show (Standing.after (script o.id) m n).status = .pending by rw [← hn]; exact hpending)
  have hcount : w.processor.calls.count o.id = n := by
    rw [← hcalls, ← hn]
    rfl
  rw [hcount]
  exact ⟨hn, hlt⟩

/-- The processor is as it was. -/
theorem OnTrack.answers_after (hw : w.OnTrack script m) (h : Undisturbed w w')
    (calls : List OrderId) (id : OrderId) :
    (w'.processor.react calls id).failure = script id (calls.count id) := by
  rw [h.react]
  exact hw.answers calls id

/-- Nothing is done for an order. -/
theorem OnTrack.keep (hw : w.OnTrack script m) (h : SameOrders w w')
    (hundisturbed : Undisturbed w w') (hids : w.ids.next ≤ w'.ids.next) : w'.OnTrack script m where
  steady := hundisturbed.steady hw.steady
  answers := hw.answers_after hundisturbed
  drawn ho := by
    rw [h.orders] at ho
    exact (hw.drawn ho).mono hids
  unknown hnone := by
    rw [h.orders] at hnone
    rw [h.calls, h.letters]
    exact hw.unknown hnone
  follows {id o} ho := by
    rw [h.orders] at ho
    rw [standing_congr (by rw [h.calls]) (h.letters o.id)]
    exact hw.follows ho

/-- There is a new order. -/
theorem OnTrack.raise {new : OrderId} {now : Instant} (hw : w.OnTrack script m)
    (hnew : w.store.orders.find? new = none) (hdrawn : w'.ids.HasDrawn new.uuid)
    (horders : ∀ i, w'.store.orders.find? i =
      if new = i then some (.fresh new now) else w.store.orders.find? i)
    (hletters : ∀ i, w'.store.deadLetters.find? i = w.store.deadLetters.find? i)
    (hcalls : w'.processor.calls = w.processor.calls) (hundisturbed : Undisturbed w w')
    (hids : w.ids.next ≤ w'.ids.next) : w'.OnTrack script m where
  steady := hundisturbed.steady hw.steady
  answers := hw.answers_after hundisturbed
  drawn := IdSupply.hasDrawn_upsert hw.drawn hids horders hdrawn
  unknown hnone := by
    rw [horders] at hnone
    split at hnone
    · cases hnone
    · rw [hcalls, hletters]
      exact hw.unknown hnone
  follows {id o} ho := by
    rw [horders] at ho
    rw [standing_congr (by rw [hcalls]) (hletters o.id)]
    split at ho
    · -- A new order is where the machine begins.
      cases ho
      obtain ⟨hcount, hletter⟩ := hw.unknown hnew
      exact ⟨0, by simp [standing, Order.fresh, hcount, hletter, Standing.after]⟩
    · exact hw.follows ho

/-- An order is tried. -/
theorem OnTrack.attempt {tried : Order} (hw : w.OnTrack script m) (h : Tried w tried m w')
    (hm : 0 < m) (horderly : w.store.Orderly) (hundisturbed : Undisturbed w w')
    (hids : w.ids.next ≤ w'.ids.next) : w'.OnTrack script m where
  steady := hundisturbed.steady hw.steady
  answers := hw.answers_after hundisturbed
  drawn ho := by
    obtain ⟨now, horders, -⟩ := h.written
    exact IdSupply.hasDrawn_upsert hw.drawn hids horders ((hw.drawn h.order).mono hids) ho
  unknown {id} hnone := by
    have hid : tried.id ≠ id := by
      intro hid
      obtain ⟨o', ho', -⟩ := h.standing
      rw [hid, hnone] at ho'
      cases ho'
    obtain ⟨horder, hletter, hcount⟩ := h.elsewhere hid
    rw [hcount, hletter]
    exact hw.unknown (horder ▸ hnone)
  follows {id o} ho := by
    by_cases hid : tried.id = id
    · obtain ⟨o', ho', hstep⟩ := h.standing
      obtain ⟨hbefore, -⟩ := hw.pending hm horderly h.order h.pending
      rw [hid, ho, Option.some.injEq] at ho'
      subst ho'
      -- The processor answers as it is to answer its next call for the order.
      have hfailure : w.failure tried.id =
          script tried.id (w.processor.calls.count tried.id) := hw.answers _ _
      exact ⟨_ + 1, by rw [hstep, hbefore, hfailure, ← hid, Standing.after_succ]⟩
    · obtain ⟨horder, hletter, hcount⟩ := h.elsewhere hid
      rw [horder] at ho
      obtain rfl := horderly.orders.own ho
      rw [standing_congr hcount hletter]
      exact hw.follows ho

/-- **One turn keeps all orders on track.** -/
theorem Serves.onTrack (h : Serves w m raised w') (hw : w.OnTrack script m) (hm : 0 < m)
    (horderly : w.store.Orderly) (hundisturbed : Undisturbed w w')
    (hids : w.ids.next ≤ w'.ids.next) : w'.OnTrack script m := by
  cases h with
  | kept h => exact hw.keep h hundisturbed hids
  | raised hnew hdrawn horders hletters hcalls =>
    exact hw.raise hnew hdrawn horders hletters hcalls hundisturbed hids
  | tried h => exact hw.attempt h hm horderly hundisturbed hids

end World

end OrderFlow
