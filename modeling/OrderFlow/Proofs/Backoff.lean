import OrderFlow.Retry

/-! # Delays that double

    A doubling delay is its base times a power of two, cut off at the cap.  The
    exponent counts the attempts that went before, but it does not grow beyond
    32.  With a base that is small against the cap the delay stops there,
    however many attempts follow, and the cap is never reached.

    So the delay is the exact one, in unbounded numbers, up to attempt 33, and
    after that as long as the cap has been reached by then
    (`delayMillis_eq_exact_iff`).  The cut at 64 bits is never seen, since the
    cap itself has no more than that. -/

namespace OrderFlow

namespace RetryPolicy

variable {base cap attempt : Nat}

/-- The doubling delay as it is meant, in unbounded numbers. -/
def exactMillis (base cap attempt : Nat) : Nat :=
  min (base * 2 ^ (attempt - 1)) cap

/-- The delay as it is, without the cut at 64 bits. -/
theorem delayMillis_exponential (hcap : cap ≤ Duration.maxCount) :
    (exponential base cap).delayMillis attempt =
      min (base * 2 ^ min (attempt - 1) maxDoublings) cap := by
  unfold delayMillis
  dsimp only
  rw [Nat.min_assoc, Nat.min_eq_right hcap]

/-- Up to attempt 33 the exponent is the exact one. -/
theorem delayMillis_of_le (hcap : cap ≤ Duration.maxCount) (h : attempt ≤ 33) :
    (exponential base cap).delayMillis attempt = exactMillis base cap attempt := by
  have hexponent : min (attempt - 1) maxDoublings = attempt - 1 := by
    apply Nat.min_eq_left
    show attempt - 1 ≤ 32
    omega
  rw [delayMillis_exponential hcap, hexponent]
  rfl

/-- From attempt 33 on the delay stays as it is. -/
theorem delayMillis_of_ge (hcap : cap ≤ Duration.maxCount) (h : 33 ≤ attempt) :
    (exponential base cap).delayMillis attempt = min (base * 2 ^ 32) cap := by
  have hexponent : min (attempt - 1) maxDoublings = 32 := by
    apply Nat.min_eq_right
    show 32 ≤ attempt - 1
    omega
  rw [delayMillis_exponential hcap, hexponent]

/-- **The exact delay**: it is met as long as the exponent is, and afterwards where there is
    nothing left to double. -/
theorem delayMillis_eq_exact_iff (hcap : cap ≤ Duration.maxCount) :
    (exponential base cap).delayMillis attempt = exactMillis base cap attempt ↔
      attempt ≤ 33 ∨ base = 0 ∨ cap ≤ base * 2 ^ 32 := by
  by_cases hfew : attempt ≤ 33
  · exact iff_of_true (delayMillis_of_le hcap hfew) (Or.inl hfew)
  have hmany : 2 ^ 33 ≤ 2 ^ (attempt - 1) := Nat.pow_le_pow_right (by decide) (by omega)
  have hgrown : base * 2 ^ 33 ≤ base * 2 ^ (attempt - 1) := Nat.mul_le_mul_left base hmany
  rw [delayMillis_of_ge hcap (by omega)]
  unfold exactMillis
  constructor
  · intro heq
    -- Both sides are the cap, or nothing is doubled.
    by_cases hzero : base = 0
    · exact Or.inr (Or.inl hzero)
    · right
      right
      omega
  · rintro (h | rfl | h)
    · exact absurd h hfew
    · rw [Nat.zero_mul, Nat.zero_mul]
    · rw [Nat.min_eq_right h, Nat.min_eq_right]
      omega

/-- **One more attempt** doubles the delay, up to the cap. -/
theorem delayMillis_succ (hcap : cap ≤ Duration.maxCount) (hfirst : 1 ≤ attempt)
    (hlast : attempt < 33) : (exponential base cap).delayMillis (attempt + 1) =
      min (2 * (exponential base cap).delayMillis attempt) cap := by
  have htwice : base * 2 ^ attempt = 2 * (base * 2 ^ (attempt - 1)) := by
    obtain ⟨before, rfl⟩ : ∃ before, attempt = before + 1 := ⟨attempt - 1, by omega⟩
    rw [Nat.add_sub_cancel, Nat.pow_succ, Nat.mul_comm (2 ^ before) 2, Nat.mul_left_comm]
  rw [delayMillis_of_le hcap (by omega), delayMillis_of_le hcap (by omega)]
  unfold exactMillis
  rw [Nat.add_sub_cancel, htwice]
  omega

/-- **How a doubling delay grows.**  For any base and any cap of 64 bits:

    * before attempt 33 each further attempt doubles the delay until it reaches the cap, and
      attempt 0 counts as the first one;
    * from attempt 33 on it stays as it is;
    * so it is the exact delay, in unbounded numbers, for exactly those attempts up to 33, for
      a base of 0, and where 32 doublings have reached the cap. -/
theorem doubling_delay_grows (hcap : cap ≤ Duration.maxCount) (attempt : Nat) :
    ((exponential base cap).delayBefore 0 = (exponential base cap).delayBefore 1 ∧
      (exponential base cap).delayMillis 1 = min base cap) ∧
    (1 ≤ attempt → attempt < 33 → (exponential base cap).delayMillis (attempt + 1) =
      min (2 * (exponential base cap).delayMillis attempt) cap) ∧
    (33 ≤ attempt → (exponential base cap).delayBefore attempt =
      .ofMilliseconds (min (base * 2 ^ 32) cap)) ∧
    ((exponential base cap).delayBefore attempt =
        .ofMilliseconds (min (base * 2 ^ (attempt - 1)) cap) ↔
      attempt ≤ 33 ∨ base = 0 ∨ cap ≤ base * 2 ^ 32) := by
  refine ⟨⟨rfl, ?_⟩, delayMillis_succ hcap, fun h => ?_, ?_⟩
  · rw [delayMillis_of_le hcap (by decide)]
    unfold exactMillis
    rw [Nat.sub_self, Nat.pow_zero, Nat.mul_one]
  · exact congrArg Duration.ofMilliseconds (delayMillis_of_ge hcap h)
  · rw [← delayMillis_eq_exact_iff hcap]
    unfold delayBefore Duration.ofMilliseconds exactMillis
    simp only [Duration.mk.injEq]
    omega

/-- A base of one second, with the largest cap: forty attempts are too many. -/
theorem doubling_delay_grows_too_slowly : 1000 * 2 ^ 32 < Duration.maxCount ∧
    (exponential 1000 Duration.maxCount).delayBefore 40 = .ofMilliseconds (1000 * 2 ^ 32) ∧
    (exponential 1000 Duration.maxCount).delayBefore 40 ≠
      .ofMilliseconds (min (1000 * 2 ^ 39) Duration.maxCount) := by
  obtain ⟨-, -, hstays, hexact⟩ :=
    @doubling_delay_grows 1000 _ (Nat.le_refl Duration.maxCount) 40
  refine ⟨by decide, hstays (by decide), fun heq => ?_⟩
  exact absurd (hexact.mp heq) (by decide)

/-- **The delay stops doubling** short of the cap: attempt 34 waits no longer than attempt 33. -/
theorem doubling_delay_stops :
    (exponential 1 Duration.maxCount).delayBefore 33 = .ofMilliseconds (2 ^ 32) ∧
    (exponential 1 Duration.maxCount).delayBefore 34 = .ofMilliseconds (2 ^ 32) ∧
    min (1 * 2 ^ (34 - 1)) Duration.maxCount = 2 ^ 33 := by
  decide

end RetryPolicy

end OrderFlow
