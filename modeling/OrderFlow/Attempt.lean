/-! # Attempts

    A call that works on a state.  It answers or fails, and in both cases
    leaves a state behind; or it waits for somebody else to act, and then
    nothing has happened at all.  A call that waits is not a step of the
    system, so `none` stands for it and carries no state. -/

namespace OrderFlow

/-- A call on a state `σ` that answers an `α` or fails with an `ε`. -/
def Attempt (σ ε α : Type) := σ → Option (Except ε α × σ)

namespace Attempt

/-- Answers without touching the state. -/
@[inline] def answer (a : α) : Attempt σ ε α := fun s => some (.ok a, s)

/-- Fails without touching the state. -/
@[inline] def fail (e : ε) : Attempt σ ε α := fun s => some (.error e, s)

/-- Waits for somebody else. -/
@[inline] def wait : Attempt σ ε α := fun _ => none

/-- Goes on with the answer of the first call, if it has one. -/
@[inline] def andThen (m : Attempt σ ε α) (f : α → Attempt σ ε β) : Attempt σ ε β := fun s =>
  match m s with
  | none => none
  | some (.ok a, s') => f a s'
  | some (.error e, s') => some (.error e, s')

@[always_inline] instance : Monad (Attempt σ ε) where
  pure := answer
  bind := andThen

/-- What a part of the state says. -/
@[inline] def read (f : σ → α) : Attempt σ ε α := fun s => some (.ok (f s), s)

/-- Changes the state. -/
@[inline] def modify (f : σ → σ) : Attempt σ ε Unit := fun s => some (.ok (), f s)

/-- The outcome of a call as an answer; the failure does not go on. -/
@[inline] def outcome (m : Attempt σ ε α) : Attempt σ ε' (Except ε α) := fun s =>
  match m s with
  | none => none
  | some (r, s') => some (.ok r, s')

/-- Passes an outcome on. -/
@[inline] def ofExcept : Except ε α → Attempt σ ε α
  | .ok a => answer a
  | .error e => fail e

/-- Passes failures on in other words. -/
@[inline] def mapError (f : ε → ε') (m : Attempt σ ε α) : Attempt σ ε' α := fun s =>
  match m s with
  | none => none
  | some (.ok a, s') => some (.ok a, s')
  | some (.error e, s') => some (.error (f e), s')

/-- A call on a part of the state. -/
@[inline] def onPart (get : τ → σ) (set : σ → τ → τ) (m : Attempt σ ε α) : Attempt τ ε α := fun t =>
  match m (get t) with
  | none => none
  | some (r, s') => some (r, set s' t)

/-! ## What each call does to a state -/

@[simp] theorem pure_apply (a : α) (s : σ) : (pure a : Attempt σ ε α) s = some (.ok a, s) := rfl

@[simp] theorem fail_apply (e : ε) (s : σ) : (fail e : Attempt σ ε α) s = some (.error e, s) := rfl

@[simp] theorem wait_apply (s : σ) : (wait : Attempt σ ε α) s = none := rfl

@[simp] theorem read_apply (f : σ → α) (s : σ) :
    (read f : Attempt σ ε α) s = some (.ok (f s), s) := rfl

@[simp] theorem modify_apply (f : σ → σ) (s : σ) :
    (modify f : Attempt σ ε Unit) s = some (.ok (), f s) := rfl

theorem bind_apply (m : Attempt σ ε α) (f : α → Attempt σ ε β) (s : σ) :
    (m >>= f) s = match m s with
      | none => none
      | some (.ok a, s') => f a s'
      | some (.error e, s') => some (.error e, s') := rfl

instance : LawfulMonad (Attempt σ ε) := by
  refine LawfulMonad.mk' _ ?_ ?_ ?_
  · intro α m
    funext s
    change (m >>= pure) s = m s
    rw [bind_apply]
    rcases m s with _ | ⟨_ | a, s'⟩ <;> rfl
  · intro α β a f
    rfl
  · intro α β γ m f g
    funext s
    simp only [bind_apply]
    rcases m s with _ | ⟨_ | a, s'⟩ <;> rfl

/-- A sequence has an outcome exactly when its first call fails with it, or
    answers and the rest has it. -/
theorem bind_eq_some_iff {m : Attempt σ ε α} {f : α → Attempt σ ε β} {s t : σ}
    {r : Except ε β} :
    (m >>= f) s = some (r, t) ↔
      (∃ a s', m s = some (.ok a, s') ∧ f a s' = some (r, t)) ∨
        (∃ e, m s = some (.error e, t) ∧ r = .error e) := by
  rw [bind_apply]
  cases h : m s with
  | none => simp
  | some p =>
    obtain ⟨(e | a), s'⟩ := p
    · constructor
      · intro h'
        cases h'
        exact Or.inr ⟨e, rfl, rfl⟩
      · rintro (⟨a, s'', h', -⟩ | ⟨e', h', rfl⟩)
        · cases h'
        · cases h'
          rfl
    · constructor
      · intro h'
        exact Or.inl ⟨a, s', rfl, h'⟩
      · rintro (⟨a', s'', h', h''⟩ | ⟨e', h', -⟩)
        · cases h'
          exact h''
        · cases h'

end Attempt

end OrderFlow
