import OrderFlow.Attempt

/-! # What an attempt has done

    Reading attempts backwards: from an outcome of a compound attempt to
    the outcomes of its parts.

    The second half is about relations between the state before an attempt
    and the state after it.  A relation that can be chained holds of a
    compound attempt as soon as it holds of the parts, so that a property
    of whole calls is proved for the few calls that everything is made of.

    Both say nothing about an attempt that has to wait.  The last part is
    about attempts that do not. -/

namespace OrderFlow.Attempt

/-! ## Outcomes of the parts -/

section outcomes
variable {σ τ ε ε' α β : Type}

/-- A sequence that answers has had an answer from both parts. -/
theorem bind_eq_ok_iff {m : Attempt σ ε α} {f : α → Attempt σ ε β} {s t : σ} {b : β} :
    (m >>= f) s = some (.ok b, t) ↔
      ∃ a s', m s = some (.ok a, s') ∧ f a s' = some (.ok b, t) := by
  rw [bind_eq_some_iff]
  constructor
  · rintro (h | ⟨e, -, he⟩)
    · exact h
    · cases he
  · exact Or.inl

theorem outcome_eq_some_iff {m : Attempt σ ε α} {s t : σ} {r : Except ε' (Except ε α)} :
    (m.outcome : Attempt σ ε' (Except ε α)) s = some (r, t) ↔
      ∃ r', m s = some (r', t) ∧ r = .ok r' := by
  unfold outcome
  rcases m s with _ | ⟨r', s'⟩
  · simp
  · simp only [Option.some.injEq, Prod.mk.injEq]
    constructor
    · rintro ⟨rfl, rfl⟩
      exact ⟨r', ⟨rfl, rfl⟩, rfl⟩
    · rintro ⟨_, ⟨rfl, rfl⟩, rfl⟩
      exact ⟨rfl, rfl⟩

/-- What comes after an attempt whose failure is an answer. -/
theorem outcome_bind_eq_some {m : Attempt σ ε α} {f : Except ε α → Attempt σ ε' β} {s t : σ}
    {r : Except ε' β} (h : ((m.outcome : Attempt σ ε' (Except ε α)) >>= f) s = some (r, t)) :
    ∃ r' s', m s = some (r', s') ∧ f r' s' = some (r, t) := by
  obtain ⟨a, s', houtcome, hrest⟩ | ⟨e, houtcome, -⟩ := bind_eq_some_iff.mp h
  · obtain ⟨r', hm, heq⟩ := outcome_eq_some_iff.mp houtcome
    cases heq
    exact ⟨a, s', hm, hrest⟩
  · obtain ⟨r', -, heq⟩ := outcome_eq_some_iff.mp houtcome
    cases heq

theorem mapError_eq_some_iff {f : ε → ε'} {m : Attempt σ ε α} {s t : σ} {r : Except ε' α} :
    m.mapError f s = some (r, t) ↔ ∃ r', m s = some (r', t) ∧ r = r'.mapError f := by
  unfold mapError
  rcases m s with _ | ⟨_ | a, s'⟩
  · simp
  all_goals
    simp only [Option.some.injEq, Prod.mk.injEq]
    constructor
    · rintro ⟨rfl, rfl⟩
      exact ⟨_, ⟨rfl, rfl⟩, rfl⟩
    · rintro ⟨_, ⟨rfl, rfl⟩, rfl⟩
      exact ⟨rfl, rfl⟩

theorem onPart_eq_some_iff {get : τ → σ} {set : σ → τ → τ} {m : Attempt σ ε α} {t t' : τ}
    {r : Except ε α} :
    m.onPart get set t = some (r, t') ↔ ∃ s', m (get t) = some (r, s') ∧ t' = set s' t := by
  unfold onPart
  rcases m (get t) with _ | ⟨r', s'⟩
  · simp
  · simp only [Option.some.injEq, Prod.mk.injEq]
    constructor
    · rintro ⟨rfl, rfl⟩
      exact ⟨s', ⟨rfl, rfl⟩, rfl⟩
    · rintro ⟨_, ⟨rfl, rfl⟩, rfl⟩
      exact ⟨rfl, rfl⟩

/-- The attempt may have to wait, but never fails. -/
def Answers (m : Attempt σ ε α) : Prop :=
  ∀ s r s', m s = some (r, s') → ∃ a, r = .ok a

/-- After a first part that never fails the second part is always reached. -/
theorem Answers.bind_eq_some {m : Attempt σ ε α} {f : α → Attempt σ ε β} {s t : σ}
    {r : Except ε β} (hm : m.Answers) (h : (m >>= f) s = some (r, t)) :
    ∃ a s', m s = some (.ok a, s') ∧ f a s' = some (r, t) := by
  obtain hreached | ⟨e, hfail, -⟩ := bind_eq_some_iff.mp h
  · exact hreached
  · obtain ⟨a, ha⟩ := hm s _ t hfail
    cases ha

theorem answers_modify (f : σ → σ) : Answers (modify f : Attempt σ ε Unit) := by
  intro s r s' h
  cases h
  exact ⟨(), rfl⟩

@[simp] theorem ofExcept_apply (x : Except ε α) (s : σ) :
    (ofExcept x : Attempt σ ε α) s = some (x, s) := by
  cases x <;> rfl

end outcomes

/-! ## Before and after -/

/-- **A relation that can be chained**: nothing done is related, and two
    steps one after the other are. -/
structure Chains {σ : Type} (R : σ → σ → Prop) : Prop where
  refl : ∀ s, R s s
  trans : ∀ {s t u}, R s t → R t u → R s u

/-- Every outcome of `m` relates the state before to the state after. -/
def Moves {σ ε α : Type} (R : σ → σ → Prop) (m : Attempt σ ε α) : Prop :=
  ∀ s r s', m s = some (r, s') → R s s'

section moves
variable {σ τ ε ε' α β : Type} {R : σ → σ → Prop}

theorem Moves.pure (hR : Chains R) (a : α) : Moves R (Pure.pure a : Attempt σ ε α) := by
  intro s r s' h
  cases h
  exact hR.refl s

theorem Moves.fail (hR : Chains R) (e : ε) : Moves R (Attempt.fail e : Attempt σ ε α) := by
  intro s r s' h
  cases h
  exact hR.refl s

theorem Moves.wait : Moves R (Attempt.wait : Attempt σ ε α) := by
  intro s r s' h
  cases h

theorem Moves.read (hR : Chains R) (f : σ → α) : Moves R (Attempt.read f : Attempt σ ε α) := by
  intro s r s' h
  cases h
  exact hR.refl s

theorem Moves.ofExcept (hR : Chains R) (x : Except ε α) :
    Moves R (Attempt.ofExcept x : Attempt σ ε α) := by
  intro s r s' h
  rw [ofExcept_apply] at h
  cases h
  exact hR.refl s

theorem Moves.modify {f : σ → σ} (h : ∀ s, R s (f s)) :
    Moves R (Attempt.modify f : Attempt σ ε Unit) := by
  intro s r s' hs
  cases hs
  exact h s

theorem Moves.bind (hR : Chains R) {m : Attempt σ ε α} {f : α → Attempt σ ε β}
    (hm : Moves R m) (hf : ∀ a, Moves R (f a)) : Moves R (m >>= f) := by
  intro s r s' h
  rcases bind_eq_some_iff.mp h with ⟨a, t, h₁, h₂⟩ | ⟨e, h₁, -⟩
  · exact hR.trans (hm s _ t h₁) (hf a t r s' h₂)
  · exact hm s _ s' h₁

theorem Moves.outcome {m : Attempt σ ε α} (hm : Moves R m) :
    Moves R (m.outcome : Attempt σ ε' (Except ε α)) := by
  intro s r s' h
  obtain ⟨r', hr', -⟩ := outcome_eq_some_iff.mp h
  exact hm s r' s' hr'

theorem Moves.mapError {m : Attempt σ ε α} (f : ε → ε') (hm : Moves R m) :
    Moves R (m.mapError f) := by
  intro s r s' h
  obtain ⟨r', hr', -⟩ := mapError_eq_some_iff.mp h
  exact hm s r' s' hr'

end moves

/-! ## Outcomes that are sure to come -/

/-- **Without waiting**: from a state with `P` the attempt answers an `a` and
    leaves a state with `Q a`, or it fails with an `e` and leaves a state
    with `E e`. -/
def Total {σ ε α : Type} (P : σ → Prop) (m : Attempt σ ε α) (Q : α → σ → Prop)
    (E : ε → σ → Prop) : Prop :=
  ∀ s, P s →
    (∃ a s', m s = some (.ok a, s') ∧ Q a s') ∨ ∃ e s', m s = some (.error e, s') ∧ E e s'

/-- **One certain answer**: from a state with `P` the attempt answers `a` and
    leaves a state with `P'`. -/
def Gives {σ ε α : Type} (P : σ → Prop) (m : Attempt σ ε α) (a : α) (P' : σ → Prop) : Prop :=
  ∀ s, P s → ∃ s', m s = some (.ok a, s') ∧ P' s'

section total
variable {σ ε α β : Type} {P P' : σ → Prop} {Q Q' : α → σ → Prop} {E E' : ε → σ → Prop}

theorem Total.pure {a : α} (h : ∀ s, P s → Q a s) :
    Total P (Pure.pure a : Attempt σ ε α) Q E :=
  fun s hs => Or.inl ⟨a, s, rfl, h s hs⟩

theorem Total.fail {e : ε} (h : ∀ s, P s → E e s) :
    Total P (Attempt.fail e : Attempt σ ε α) Q E :=
  fun s hs => Or.inr ⟨e, s, rfl, h s hs⟩

/-- Asking for as much before and promising less afterwards. -/
theorem Total.weaken {m : Attempt σ ε α} (hm : Total P m Q E) (hQ : ∀ a s, Q a s → Q' a s)
    (hE : ∀ e s, E e s → E' e s) : Total P m Q' E' := by
  intro s hs
  rcases hm s hs with ⟨a, s', ha, hq⟩ | ⟨e, s', he, hfail⟩
  · exact Or.inl ⟨a, s', ha, hQ a s' hq⟩
  · exact Or.inr ⟨e, s', he, hE e s' hfail⟩

theorem Total.bind {m : Attempt σ ε α} {f : α → Attempt σ ε β} {R : β → σ → Prop}
    (hm : Total P m Q E) (hf : ∀ a, Total (Q a) (f a) R E) : Total P (m >>= f) R E := by
  intro s hs
  rcases hm s hs with ⟨a, s', ha, hq⟩ | ⟨e, s', he, hfail⟩
  · have hbind : (m >>= f) s = f a s' := by
      rw [bind_apply, ha]
    rw [hbind]
    exact hf a s' hq
  · refine Or.inr ⟨e, s', ?_, hfail⟩
    rw [bind_apply, he]

/-- The answer in another form. -/
theorem Total.bind_pure {m : Attempt σ ε α} {f : α → β} {R : β → σ → Prop} (hm : Total P m Q E)
    (h : ∀ a s, Q a s → R (f a) s) : Total P (do let a ← m; Pure.pure (f a)) R E :=
  hm.bind fun a => Total.pure (h a)

/-- Going on from a certain answer. -/
theorem Gives.bind {m : Attempt σ ε α} {f : α → Attempt σ ε β} {a : α} {R : β → σ → Prop}
    (hm : Gives P m a P') (hf : Total P' (f a) R E) : Total P (m >>= f) R E := by
  intro s hs
  obtain ⟨s', ha, hs'⟩ := hm s hs
  have hbind : (m >>= f) s = f a s' := by
    rw [bind_apply, ha]
  rw [hbind]
  exact hf s' hs'

end total

end OrderFlow.Attempt
